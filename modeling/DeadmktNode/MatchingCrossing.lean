/-
# Volume and price of the crossing

Read as a market, two price-sorted books have a demand and a supply at every price, and
at most the smaller of the two can change hands there.  When nothing makes the matching
loop skip an order (no NFT stands on both sides, every order has a quantity and the
minimum is at most 1), the loop matches the greatest such volume, and it fills each side
from the front (`crossing_volume`).

The volume is an induction over the loop: a fill takes the same amount off the demand and
the supply at every price between the two orders.  The fronts are a history invariant: what
was filled at a position and what the cursor can still take off it is its quantity.

The price of a match is the midpoint only if the sum of the two limits fits a `u64`
(`settlementPrice_is_midpoint_iff`).
-/
import DeadmktNode.MatchingAhead

/-! ## Demand and supply -/

/-- The quantity of the orders that satisfy `ok`. -/
def depth (ok : RevealedOrder → Bool) (orders : List RevealedOrder) : ℕ :=
  ((orders.filter ok).map fun o => o.order.quantity.toNat).sum

/-- The quantity of the buys that accept the price `p`. -/
def demandAt (buys : List RevealedOrder) (p : UInt64) : ℕ :=
  depth (fun o => p ≤ o.order.price) buys

/-- The quantity of the sells that accept the price `p`. -/
def supplyAt (sells : List RevealedOrder) (p : UInt64) : ℕ :=
  depth (fun o => o.order.price ≤ p) sells

/-- The sum of the fills. -/
def volume (ms : List Match) : ℕ := (ms.map fun m => m.fillQuantity.toNat).sum

@[simp] theorem volume_nil : volume [] = 0 := rfl

@[simp] theorem volume_cons (m : Match) (ms : List Match) :
    volume (m :: ms) = m.fillQuantity.toNat + volume ms := rfl

/-- The depth of one more order. -/
theorem depth_cons (ok : RevealedOrder → Bool) (o : RevealedOrder) (orders : List RevealedOrder) :
    depth ok (o :: orders)
      = (if ok o then o.order.quantity.toNat else 0) + depth ok orders := by
  unfold depth
  rw [List.filter_cons]
  split_ifs
  · rw [List.map_cons, List.sum_cons]
  · rw [Nat.zero_add]

/-- Orders of which none satisfies `ok` have no depth. -/
theorem depth_eq_zero {ok : RevealedOrder → Bool} {orders : List RevealedOrder}
    (h : ∀ o ∈ orders, ok o = false) : depth ok orders = 0 := by
  unfold depth
  rw [List.filter_eq_nil_iff.mpr fun o ho => by rw [h o ho]; exact Bool.false_ne_true]
  rfl

namespace OrderQueue

/-- What is left in a queue of the orders that satisfy `ok`. -/
def left (ok : RevealedOrder → Bool) (q : OrderQueue) : ℕ :=
  match q.orders with
  | [] => 0
  | o :: orders => (if ok o then q.remaining.toNat else 0) + depth ok orders

/-- What is left of a queue is what is left of its front and all behind it. -/
theorem left_cons (ok : RevealedOrder → Bool) (o : RevealedOrder) (orders : List RevealedOrder)
    (r : UInt64) : left ok ⟨o :: orders, r⟩ = (if ok o then r.toNat else 0) + depth ok orders :=
  rfl

@[simp] theorem left_nil (ok : RevealedOrder → Bool) (r : UInt64) : left ok ⟨[], r⟩ = 0 := rfl

@[simp] theorem left_full (ok : RevealedOrder → Bool) (orders : List RevealedOrder) :
    left ok (full orders) = depth ok orders := by
  cases orders with
  | nil => rfl
  | cons o orders => rw [full_cons, left_cons, depth_cons]

/-- Orders of which none satisfies `ok` leave nothing. -/
theorem left_eq_zero {ok : RevealedOrder → Bool} {q : OrderQueue}
    (h : ∀ o ∈ q.orders, ok o = false) : q.left ok = 0 := by
  obtain ⟨orders, r⟩ := q
  cases orders with
  | nil => rfl
  | cons o orders =>
      rw [left_cons, h o List.mem_cons_self, if_neg Bool.false_ne_true, Nat.zero_add]
      exact depth_eq_zero fun x hx => h x (List.mem_cons_of_mem _ hx)

/-- A fill is taken out of what is left of the first order. -/
theorem left_take (ok : RevealedOrder → Bool) (o : RevealedOrder) (orders : List RevealedOrder)
    {r fillQty : UInt64} (h : fillQty ≤ r) :
    (if ok o then fillQty.toNat else 0) + left ok (take ⟨o :: orders, r⟩ fillQty)
      = left ok ⟨o :: orders, r⟩ := by
  have hsub := UInt64.toNat_sub_of_le r fillQty h
  have hle : fillQty.toNat ≤ r.toNat := UInt64.le_iff_toNat_le.mp h
  by_cases hzero : r - fillQty = 0
  · rw [take, if_pos hzero, next_cons, left_full, left_cons]
    rw [hzero, UInt64.toNat_zero] at hsub
    rw [show fillQty.toNat = r.toNat by omega]
  · have htake : take ⟨o :: orders, r⟩ fillQty = ⟨o :: orders, r - fillQty⟩ := if_neg hzero
    rw [htake, left_cons, left_cons]
    split_ifs
    · omega
    · omega

/-- Every order of the queue has a quantity, and something is left of the first one. -/
structure Positive (q : OrderQueue) : Prop where
  quantity : ∀ o ∈ q.orders, 0 < o.order.quantity
  remaining : q.orders ≠ [] → 0 < q.remaining

/-- A book of positive quantities leaves something of every order. -/
theorem positive_full {orders : List RevealedOrder} (h : ∀ o ∈ orders, 0 < o.order.quantity) :
    (full orders).Positive := by
  refine ⟨h, ?_⟩
  cases orders with
  | nil => exact fun hne => absurd rfl hne
  | cons o orders => exact fun _ => h o List.mem_cons_self

/-- A fill leaves the orders of a queue or all but the first one. -/
theorem take_orders (q : OrderQueue) (fillQty : UInt64) :
    (q.take fillQty).orders = q.orders ∨ (q.take fillQty).orders = q.orders.tail := by
  unfold take
  split_ifs
  · exact .inr rfl
  · exact .inl rfl

/-- A fill leaves something of every order that stays. -/
theorem Positive.take {q : OrderQueue} (h : q.Positive) (fillQty : UInt64) :
    (q.take fillQty).Positive := by
  unfold OrderQueue.take
  split_ifs with hzero
  · exact positive_full fun o ho => h.quantity o (List.mem_of_mem_tail ho)
  · refine ⟨h.quantity, fun _ => ?_⟩
    exact UInt64.pos_iff_ne_zero.mpr hzero

end OrderQueue

/-! ## Books without skips -/

/-- Open orders of which no skip is due: sorted, of different NFTs and with quantities. -/
structure OpenOrders.Regular (o : OpenOrders) : Prop where
  descend : PricesDescend o.buys.orders
  ascend : PricesAscend o.sells.orders
  nft_ne : ∀ b ∈ o.buys.orders, ∀ s ∈ o.sells.orders, b.order.nftId ≠ s.order.nftId
  buys : o.buys.Positive
  sells : o.sells.Positive

/-- A sorted book between different owners is regular, -/
theorem OpenOrders.regular_full {buys sells : List RevealedOrder} (hbuys : PricesDescend buys)
    (hsells : PricesAscend sells)
    (hnft : ∀ b ∈ buys, ∀ s ∈ sells, b.order.nftId ≠ s.order.nftId)
    (hquantity : ∀ o ∈ buys ++ sells, 0 < o.order.quantity) :
    (OpenOrders.full buys sells).Regular where
  descend := hbuys
  ascend := hsells
  nft_ne := hnft
  buys := OrderQueue.positive_full fun o ho => hquantity o (List.mem_append_left _ ho)
  sells := OrderQueue.positive_full fun o ho => hquantity o (List.mem_append_right _ ho)

/-- and stays so when it is filled. -/
theorem OpenOrders.Regular.fill {o : OpenOrders} (h : o.Regular) (fillQty : UInt64) :
    (o.fill fillQty).Regular := by
  have hbuys : ((o.buys.take fillQty).orders).Sublist o.buys.orders := by
    rcases o.buys.take_orders fillQty with heq | heq
    · rw [heq]
    · rw [heq]
      exact List.tail_sublist _
  have hsells : ((o.sells.take fillQty).orders).Sublist o.sells.orders := by
    rcases o.sells.take_orders fillQty with heq | heq
    · rw [heq]
    · rw [heq]
      exact List.tail_sublist _
  exact ⟨h.descend.sublist hbuys, h.ascend.sublist hsells,
    fun b hb s hs => h.nft_ne b (hbuys.mem hb) s (hsells.mem hs), h.buys.take _, h.sells.take _⟩

namespace Book

variable [Externals] (B : Book)

/-- **No skips.**  On regular open orders every iteration is a fill. -/
theorem step_of_regular (hmin : B.minQuantity ≤ 1) {c c' : BookCursor} {o : Option Match}
    (hreg : (B.openAt c).Regular) (h : B.step c = some (c', o)) :
    ∃ buy sell, B.buys[c.buyIdx]? = some buy ∧ B.sells[c.sellIdx]? = some sell ∧
      sell.order.price ≤ buy.order.price ∧ 0 < min c.buyRemaining c.sellRemaining ∧
      c' = B.consume c (min c.buyRemaining c.sellRemaining) ∧
      o = some (B.makeMatch buy sell (min c.buyRemaining c.sellRemaining)) := by
  obtain ⟨buy, sell, hbuy, hsell, hcross, hstep⟩ := B.step_cases h
  rw [B.openAt_of_getElem? hbuy hsell] at hreg
  have hnft : buy.order.nftId ≠ sell.order.nftId :=
    hreg.nft_ne buy List.mem_cons_self sell List.mem_cons_self
  have hfill : 1 ≤ min c.buyRemaining c.sellRemaining := by
    refine le_min_of_le ?_ ?_
    · have := hreg.buys.remaining (List.cons_ne_nil _ _)
      exact UInt64.le_iff_toNat_le.mpr (UInt64.lt_iff_toNat_lt.mp this)
    · have := hreg.sells.remaining (List.cons_ne_nil _ _)
      exact UInt64.le_iff_toNat_le.mpr (UInt64.lt_iff_toNat_lt.mp this)
  cases hstep with
  | skipSell heq | skipBuy heq => exact absurd heq hnft
  | dustBuy _ hdust | dustSell _ hdust =>
      exact absurd (UInt64.le_trans hmin hfill) (UInt64.not_le.mpr hdust)
  | fill => exact ⟨buy, sell, hbuy, hsell, hcross,
      UInt64.lt_iff_toNat_lt.mpr (UInt64.le_iff_toNat_le.mp hfill), rfl, rfl⟩

end Book

/-! ## The volume -/

namespace OpenOrders

/-- What can change hands at the price `p`. -/
def crossing (o : OpenOrders) (p : UInt64) : ℕ :=
  min (o.buys.left fun b => p ≤ b.order.price) (o.sells.left fun s => s.order.price ≤ p)

/-- At first, demand and supply at the price cross. -/
theorem crossing_full (buys sells : List RevealedOrder) (p : UInt64) :
    (full buys sells).crossing p = min (demandAt buys p) (supplyAt sells p) := by
  unfold crossing full demandAt supplyAt
  rw [OrderQueue.left_full, OrderQueue.left_full]

section

variable {buy sell : RevealedOrder} {buys sells : List RevealedOrder} {r s : UInt64}

/-- Nothing changes hands outside of the two best prices. -/
theorem crossing_eq_zero (hreg : Regular ⟨⟨buy :: buys, r⟩, ⟨sell :: sells, s⟩⟩) {p : UInt64}
    (hp : ¬ (sell.order.price ≤ p ∧ p ≤ buy.order.price)) :
    crossing ⟨⟨buy :: buys, r⟩, ⟨sell :: sells, s⟩⟩ p = 0 := by
  unfold crossing
  by_cases hlow : sell.order.price ≤ p
  · -- no buy accepts a price above the best one
    have hhigh : ¬ p ≤ buy.order.price := fun h => hp ⟨hlow, h⟩
    rw [OrderQueue.left_eq_zero, Nat.zero_min]
    intro b hb
    refine decide_eq_false fun hpb => hhigh (UInt64.le_trans hpb ?_)
    rcases List.mem_cons.mp hb with rfl | hb
    · exact UInt64.le_refl _
    · exact List.rel_of_pairwise_cons hreg.descend hb
  · rw [OrderQueue.left_eq_zero (q := ⟨sell :: sells, s⟩), Nat.min_zero]
    intro t ht
    refine decide_eq_false fun htp => hlow (UInt64.le_trans ?_ htp)
    rcases List.mem_cons.mp ht with rfl | ht
    · exact UInt64.le_refl _
    · exact List.rel_of_pairwise_cons hreg.ascend ht

variable (buy sell buys sells)

/-- A fill takes its quantity off the crossing at every price between the two orders. -/
theorem crossing_fill {fillQty : UInt64} (hr : fillQty ≤ r) (hs : fillQty ≤ s) {p : UInt64}
    (hlow : sell.order.price ≤ p) (hhigh : p ≤ buy.order.price) :
    crossing ⟨⟨buy :: buys, r⟩, ⟨sell :: sells, s⟩⟩ p
      = fillQty.toNat + (fill ⟨⟨buy :: buys, r⟩, ⟨sell :: sells, s⟩⟩ fillQty).crossing p := by
  have hbuy := OrderQueue.left_take (fun b => p ≤ b.order.price) buy buys hr
  have hsell := OrderQueue.left_take (fun t => t.order.price ≤ p) sell sells hs
  rw [if_pos (decide_eq_true hhigh)] at hbuy
  rw [if_pos (decide_eq_true hlow)] at hsell
  unfold crossing fill
  rw [← hbuy, ← hsell, Nat.add_min_add_left]

/-- Outside of the two best prices nothing changes hands after a fill either. -/
theorem crossing_fill_le {fillQty : UInt64} (hr : fillQty ≤ r) (hs : fillQty ≤ s) {p : UInt64} :
    (fill ⟨⟨buy :: buys, r⟩, ⟨sell :: sells, s⟩⟩ fillQty).crossing p
      ≤ crossing ⟨⟨buy :: buys, r⟩, ⟨sell :: sells, s⟩⟩ p := by
  have hbuy := OrderQueue.left_take (fun b => p ≤ b.order.price) buy buys hr
  have hsell := OrderQueue.left_take (fun t => t.order.price ≤ p) sell sells hs
  unfold crossing fill
  exact min_le_min ((Nat.le_add_left _ _).trans_eq hbuy) ((Nat.le_add_left _ _).trans_eq hsell)

end

end OpenOrders

namespace Book

variable [Externals] (B : Book)

/-- When the loop ends, nothing can change hands any more. -/
theorem crossing_of_step_eq_none {c : BookCursor} (hreg : (B.openAt c).Regular)
    (h : B.step c = none) (p : UInt64) : (B.openAt c).crossing p = 0 := by
  rw [step_eq_none_iff] at h
  cases hbuy : B.buys[c.buyIdx]? with
  | none =>
      unfold OpenOrders.crossing openAt
      rw [List.drop_eq_nil_of_le (List.getElem?_eq_none_iff.mp hbuy), OrderQueue.left_nil,
        Nat.zero_min]
  | some buy =>
      cases hsell : B.sells[c.sellIdx]? with
      | none =>
          unfold OpenOrders.crossing openAt
          rw [List.drop_eq_nil_of_le (List.getElem?_eq_none_iff.mp hsell),
            OrderQueue.left_nil (fun t => t.order.price ≤ p), Nat.min_zero]
      | some sell =>
          rw [B.openAt_of_getElem? hbuy hsell] at hreg ⊢
          refine OpenOrders.crossing_eq_zero hreg ?_
          rintro ⟨hlow, hhigh⟩
          exact absurd (UInt64.le_trans hlow hhigh)
            (UInt64.not_le.mpr (h buy sell hbuy hsell))

/-- **The loop matches the greatest volume** that can change hands at one price. -/
theorem volume_loop_isGreatest (hmin : B.minQuantity ≤ 1) (c : BookCursor)
    (hreg : (B.openAt c).Regular) :
    IsGreatest (Set.range (B.openAt c).crossing) (volume (B.loop.outputs c)) := by
  refine B.loop.outputs_induction (P := fun c os => (B.openAt c).Regular →
    IsGreatest (Set.range (B.openAt c).crossing) (volume os)) ?_ ?_ c hreg
  · intro c h hreg
    have hzero := B.crossing_of_step_eq_none hreg h
    refine ⟨⟨0, hzero 0⟩, ?_⟩
    rintro v ⟨p, rfl⟩
    exact (hzero p).le
  · intro c c' o os h ih hreg
    obtain ⟨buy, sell, hbuy, hsell, hcross, hpos, rfl, rfl⟩ := B.step_of_regular hmin hreg h
    rw [openAt_consume] at ih
    obtain ⟨⟨p, hp⟩, hle⟩ := ih (hreg.fill _)
    obtain ⟨hr, hs⟩ := fill_le c.buyRemaining c.sellRemaining
    rw [B.openAt_of_getElem? hbuy hsell] at hreg hp hle ⊢
    -- what a price between the two orders gains by the fill
    have hfill := fun {q : UInt64} => OpenOrders.crossing_fill buy sell
      (B.buys.drop (c.buyIdx + 1)) (B.sells.drop (c.sellIdx + 1)) hr hs (p := q)
    rw [Option.toList_some, List.singleton_append, volume_cons]
    constructor
    · by_cases hbetween : sell.order.price ≤ p ∧ p ≤ buy.order.price
      · exact ⟨p, by rw [hfill hbetween.1 hbetween.2, hp]; rfl⟩
      · -- the rest has no volume: the best buy price does
        have hnone : volume os = 0 := by
          have hzero := OpenOrders.crossing_eq_zero hreg hbetween
          have hrest := OpenOrders.crossing_fill_le buy sell (B.buys.drop (c.buyIdx + 1))
            (B.sells.drop (c.sellIdx + 1)) hr hs (p := p)
          exact Nat.le_zero.mp ((hp.symm.trans_le hrest).trans_eq hzero)
        refine ⟨buy.order.price, ?_⟩
        have hbest := hle ⟨buy.order.price, rfl⟩
        rw [hfill hcross (UInt64.le_refl _)]
        show _ = (min c.buyRemaining c.sellRemaining).toNat + volume os
        omega
    · rintro v ⟨q, rfl⟩
      by_cases hbetween : sell.order.price ≤ q ∧ q ≤ buy.order.price
      · rw [hfill hbetween.1 hbetween.2]
        exact Nat.add_le_add_left (hle ⟨q, rfl⟩) _
      · rw [OpenOrders.crossing_eq_zero hreg hbetween]
        exact Nat.zero_le _

end Book

/-! ## Each side is filled from the front -/

/-- A cursor that moves on from an exhausted order gives up nothing. -/
theorem capacity_advance (orders : List RevealedOrder) (idx i : ℕ) :
    capacity orders (idx + 1) (quantityAt orders (idx + 1)) i = capacity orders idx 0 i := by
  unfold capacity
  split_ifs with h0 h1 h2 h3 h4 h5
  · rfl
  · rfl
  · omega
  · omega
  · omega
  · rw [h3]
  · omega
  · rw [UInt64.toNat_zero]; omega
  · rfl

namespace Book

variable [Externals] (B : Book)

omit [Externals] in
/-- A fill takes its quantity from the front buy. -/
theorem capacity_consume_buy (c : BookCursor) (fillQty : UInt64) (i : ℕ) :
    capacity B.buys (B.consume c fillQty).buyIdx (B.consume c fillQty).buyRemaining i
      = capacity B.buys c.buyIdx (c.buyRemaining - fillQty) i := by
  unfold consume advanceBuy advanceSell
  dsimp only
  split_ifs with hb hs hs
  · dsimp only; rw [capacity_advance, hb]
  · dsimp only; rw [capacity_advance, hb]
  · rfl
  · rfl

omit [Externals] in
/-- It takes it from the front sell too. -/
theorem capacity_consume_sell (c : BookCursor) (fillQty : UInt64) (i : ℕ) :
    capacity B.sells (B.consume c fillQty).sellIdx (B.consume c fillQty).sellRemaining i
      = capacity B.sells c.sellIdx (c.sellRemaining - fillQty) i := by
  unfold consume advanceBuy advanceSell
  dsimp only
  split_ifs with hb hs hs
  · dsimp only at hs ⊢; rw [capacity_advance, hs]
  · rfl
  · dsimp only at hs ⊢; rw [capacity_advance, hs]
  · rfl

/-- What was filled at a position and what the cursor can still take off it make up its
quantity. -/
structure FilledUpTo (past : List PlacedMatch) (c : BookCursor) : Prop where
  regular : (B.openAt c).Regular
  buys : ∀ i, (past.map (PlacedMatch.buyFill i)).sum + capacity B.buys c.buyIdx c.buyRemaining i
    = (quantityAt B.buys i).toNat
  sells : ∀ i, (past.map (PlacedMatch.sellFill i)).sum
      + capacity B.sells c.sellIdx c.sellRemaining i
    = (quantityAt B.sells i).toNat

/-- **Step.**  What a step emits fills the orders it goes past. -/
theorem filledUpTo_step (hmin : B.minQuantity ≤ 1) {past : List PlacedMatch} {c c' : BookCursor}
    {o : Option PlacedMatch} (h : B.FilledUpTo past c)
    (hstep : B.placedLoop.step c = some (c', o)) : B.FilledUpTo (past ++ o.toList) c' := by
  obtain ⟨m, hm, rfl⟩ := B.placedLoop_step hstep
  obtain ⟨buy, sell, -, -, -, -, rfl, rfl⟩ := B.step_of_regular hmin h.regular hm
  obtain ⟨hr, hs⟩ := fill_le c.buyRemaining c.sellRemaining
  rw [Option.map_some, Option.toList_some]
  constructor
  · rw [openAt_consume]
    exact h.regular.fill _
  · intro i
    have hpast := h.buys i
    have hpay := capacity_sub B.buys c.buyIdx hr i
    have hfill : PlacedMatch.buyFill i (place c (B.makeMatch buy sell
        (min c.buyRemaining c.sellRemaining)))
          = if c.buyIdx = i then (min c.buyRemaining c.sellRemaining).toNat else 0 := rfl
    rw [capacity_consume_buy, List.map_append, List.sum_append, List.map_singleton,
      List.sum_singleton, hfill, Nat.add_assoc, hpay]
    exact hpast
  · intro i
    have hpast := h.sells i
    have hpay := capacity_sub B.sells c.sellIdx hs i
    have hfill : PlacedMatch.sellFill i (place c (B.makeMatch buy sell
        (min c.buyRemaining c.sellRemaining)))
          = if c.sellIdx = i then (min c.buyRemaining c.sellRemaining).toNat else 0 := rfl
    rw [capacity_consume_sell, List.map_append, List.sum_append, List.map_singleton,
      List.sum_singleton, hfill, Nat.add_assoc, hpay]
    exact hpast

end Book

/-- Filled quantities by position: whenever a position is filled at all, every position
before it is filled completely. -/
def FillsFront (orders : List RevealedOrder) (filled : ℕ → ℕ) : Prop :=
  ∀ i j, j < i → 0 < filled i → filled j = (quantityAt orders j).toNat

/-- Fills that leave the capacity of a cursor fill the front. -/
theorem fillsFront_of_capacity {orders : List RevealedOrder} {filled : ℕ → ℕ} {idx : ℕ}
    {remaining : UInt64}
    (h : ∀ i, filled i + capacity orders idx remaining i = (quantityAt orders i).toNat) :
    FillsFront orders filled := by
  intro i j hji hi
  have hidx : i ≤ idx := by
    by_contra hlt
    have := h i
    rw [capacity, if_neg (by omega), if_neg (by omega)] at this
    omega
  have := h j
  rwa [capacity, if_pos (by omega), Nat.add_zero] at this

section

variable [Externals] (batchId poolId : UInt64) (symbol : Bytes)
  (buys sells : List RevealedOrder) (minQuantity : UInt64)

/-- **The crossing volume, with priority.**  In price-sorted books in which no NFT stands on
both sides, all quantities are positive and the minimum is at most 1, the fills sum to the
greatest volume that demand and supply allow at one price, and each side is filled from the
front. -/
theorem crossing_volume (hbuys : PricesDescend buys) (hsells : PricesAscend sells)
    (hnft : ∀ b ∈ buys, ∀ s ∈ sells, b.order.nftId ≠ s.order.nftId)
    (hquantity : ∀ o ∈ buys ++ sells, 1 ≤ o.order.quantity) (hmin : minQuantity ≤ 1) :
    IsGreatest (Set.range fun p : UInt64 => min (demandAt buys p) (supplyAt sells p))
        (volume (generateMatches batchId poolId symbol buys sells minQuantity)) ∧
      ∃ placed : List PlacedMatch,
        generateMatches batchId poolId symbol buys sells minQuantity
            = placed.map PlacedMatch.trade ∧
          (∀ p ∈ placed, buys[p.buyIdx]? = some p.trade.buyer ∧
            sells[p.sellIdx]? = some p.trade.seller) ∧
          FillsFront buys (fun i => (placed.map (PlacedMatch.buyFill i)).sum) ∧
          FillsFront sells (fun i => (placed.map (PlacedMatch.sellFill i)).sum) := by
  let B : Book := ⟨batchId, poolId, symbol, buys, sells, minQuantity⟩
  have hpos : ∀ o ∈ buys ++ sells, 0 < o.order.quantity := fun o ho =>
    UInt64.lt_iff_toNat_lt.mpr (UInt64.le_iff_toNat_le.mp (hquantity o ho))
  have hreg : (B.openAt B.start).Regular := OpenOrders.regular_full hbuys hsells hnft hpos
  constructor
  · rw [generateMatches_eq_loop]
    have h := B.volume_loop_isGreatest hmin B.start hreg
    have hcrossing : (B.openAt B.start).crossing
        = fun p => min (demandAt buys p) (supplyAt sells p) :=
      funext (OpenOrders.crossing_full buys sells)
    rwa [hcrossing] at h
  · refine ⟨placedMatches batchId poolId symbol buys sells minQuantity,
      generateMatches_eq_map_placed _ _ _ _ _ _, ?_, ?_⟩
    · intro p hp
      have hw := placedMatches_wellPlaced _ _ _ _ _ _ p hp
      exact ⟨hw.buyer, hw.seller⟩
    · have hstart : B.FilledUpTo [] B.start := by
        refine ⟨hreg, fun i => ?_, fun i => ?_⟩
        · rw [List.map_nil, List.sum_nil, Nat.zero_add]
          exact capacity_zero buys i
        · rw [List.map_nil, List.sum_nil, Nat.zero_add]
          exact capacity_zero sells i
      obtain ⟨c, -, hfilled⟩ := B.placedLoop.outputs_history
        (fun past c c' o => B.filledUpTo_step hmin) hstart
      exact ⟨fillsFront_of_capacity hfilled.buys, fillsFront_of_capacity hfilled.sells⟩

end

/-- Two buys of 5 and two sells of 6 and 3, all crossing: 9 change hands. -/
theorem nine_change_hands :
    letI := referenceExternals []
    IsGreatest (Set.range fun p : UInt64 =>
      min (demandAt [bookOrder 1 1 10 5 1, bookOrder 2 1 9 5 2] p)
        (supplyAt [bookOrder 3 0 5 6 3, bookOrder 4 0 9 3 4] p)) 9 := by
  let _ := referenceExternals []
  have h := (crossing_volume 7 0 [69, 77, 77, 47, 75, 65, 89]
    [bookOrder 1 1 10 5 1, bookOrder 2 1 9 5 2] [bookOrder 3 0 5 6 3, bookOrder 4 0 9 3 4] 1
    (by decide) (by decide) (by decide) (by decide) (by decide)).1
  have hv : volume (generateMatches 7 0 [69, 77, 77, 47, 75, 65, 89]
      [bookOrder 1 1 10 5 1, bookOrder 2 1 9 5 2]
      [bookOrder 3 0 5 6 3, bookOrder 4 0 9 3 4] 1) = 9 := by decide +kernel
  rwa [hv] at h

/-! ## The price -/

section

variable [Externals] (batchId poolId : UInt64) (symbol : Bytes)
  (buys sells : List RevealedOrder) (minQuantity : UInt64)

/-- The settlement price is half of the wrapped sum of the two limits. -/
theorem settlementPrice_toNat {m : Match}
    (h : m ∈ generateMatches batchId poolId symbol buys sells minQuantity) :
    m.settlementPrice.toNat
      = (m.buyer.order.price.toNat + m.seller.order.price.toNat) % 2 ^ 64 / 2 := by
  rw [generateMatches_eq_map_placed] at h
  obtain ⟨p, hp, rfl⟩ := List.mem_map.mp h
  rw [(placedMatches_wellPlaced _ _ _ _ _ _ p hp).made]
  show (_ / 2 : UInt64).toNat = _
  rw [UInt64.toNat_div, UInt64.toNat_add]
  rfl

/-- **The midpoint.**  The price of a match is the midpoint of its two limits, and lies between
them, exactly if their sum fits a `u64`. -/
theorem settlementPrice_is_midpoint_iff {m : Match}
    (h : m ∈ generateMatches batchId poolId symbol buys sells minQuantity) :
    (m.seller.order.price ≤ m.settlementPrice ∧ m.settlementPrice ≤ m.buyer.order.price ∧
        m.settlementPrice.toNat
          = (m.buyer.order.price.toNat + m.seller.order.price.toNat) / 2) ↔
      m.buyer.order.price.toNat + m.seller.order.price.toNat < 2 ^ 64 := by
  have hprice := settlementPrice_toNat _ _ _ _ _ _ h
  have hcross : m.seller.order.price.toNat ≤ m.buyer.order.price.toNat := by
    rw [generateMatches_eq_map_placed] at h
    obtain ⟨p, hp, rfl⟩ := List.mem_map.mp h
    exact UInt64.le_iff_toNat_le.mp (placedMatches_wellPlaced _ _ _ _ _ _ p hp).cross
  rw [UInt64.le_iff_toNat_le, UInt64.le_iff_toNat_le]
  constructor
  · rintro ⟨-, -, hmid⟩
    by_contra hover
    omega
  · intro hfits
    rw [Nat.mod_eq_of_lt hfits] at hprice
    refine ⟨?_, ?_, hprice⟩
    · omega
    · omega

end

/-- A buy at 10 and a sell at 7 settle at 8. -/
theorem ten_and_seven_settle_at_eight :
    letI := referenceExternals []
    ∃ m ∈ generateMatches 7 0 [69, 77, 77, 47, 75, 65, 89] [bookOrder 1 1 10 5 1]
        [bookOrder 2 0 7 5 2] 1,
      m.seller.order.price ≤ m.settlementPrice ∧ m.settlementPrice ≤ m.buyer.order.price ∧
        m.settlementPrice = 8 := by
  let _ := referenceExternals []
  have hmem : (Book.mk 7 0 [69, 77, 77, 47, 75, 65, 89] [bookOrder 1 1 10 5 1]
      [bookOrder 2 0 7 5 2] 1).makeMatch (bookOrder 1 1 10 5 1) (bookOrder 2 0 7 5 2) 5
      ∈ generateMatches 7 0 [69, 77, 77, 47, 75, 65, 89] [bookOrder 1 1 10 5 1]
        [bookOrder 2 0 7 5 2] 1 := by decide +kernel
  obtain ⟨hlow, hhigh, -⟩ :=
    (settlementPrice_is_midpoint_iff 7 0 _ _ _ 1 hmem).mpr (by decide +kernel)
  exact ⟨_, hmem, hlow, hhigh, by decide +kernel⟩

/-- A buy and a sell at `2 ^ 63` settle at 0. -/
theorem midpoint_overflows :
    ¬ ∀ (_ : Externals) (batchId poolId : UInt64) (symbol : Bytes)
        (buys sells : List RevealedOrder) (minQuantity : UInt64),
      ∀ m ∈ generateMatches batchId poolId symbol buys sells minQuantity,
        m.seller.order.price ≤ m.settlementPrice ∧ m.settlementPrice ≤ m.buyer.order.price ∧
          m.settlementPrice.toNat
            = (m.buyer.order.price.toNat + m.seller.order.price.toNat) / 2 := by
  intro h
  let _ := referenceExternals []
  have hmem : (Book.mk 7 0 [69, 77, 77, 47, 75, 65, 89] [bookOrder 1 1 (2 ^ 63) 5 1]
      [bookOrder 2 0 (2 ^ 63) 5 2] 1).makeMatch (bookOrder 1 1 (2 ^ 63) 5 1)
        (bookOrder 2 0 (2 ^ 63) 5 2) 5
      ∈ generateMatches 7 0 [69, 77, 77, 47, 75, 65, 89] [bookOrder 1 1 (2 ^ 63) 5 1]
        [bookOrder 2 0 (2 ^ 63) 5 2] 1 := by decide +kernel
  exact absurd (h _ 7 0 _ _ _ 1 _ hmem).1 (by decide +kernel)
