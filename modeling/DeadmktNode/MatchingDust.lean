/-
# Dust in the matching loop

An order under the minimum quantity ("dust") can never be filled, but it is not taken out
of the books: it takes part in the pointer walk and in the look-ahead that decides which
side of a self-trade to skip.  This file compares the walk with the walk over the books
without their dust.

An order that has no crossing counterparty of another NFT left ("doomed") and one whose
remainder is under the minimum ("dead") can be dropped from healthy books
(`walk_drop_doomed_buy`, `walk_drop_doomed_sell`, `walk_drop_dead_buy`,
`walk_drop_dead_sell`).  With these four rules the two walks agree as long as no dust
misleads the loop (`generateMatches_withoutDust`); the look-ahead that counts dust as a
counterparty is what goes wrong (`dust_costs_a_match`).
-/
import DeadmktNode.MatchingAhead

/-! ## Books without dust -/

/-- The orders that reach the minimum. -/
def healthyOrders (minQuantity : UInt64) (orders : List RevealedOrder) : List RevealedOrder :=
  orders.filter fun o => minQuantity ≤ o.order.quantity

section

variable {minQuantity : UInt64} {o : RevealedOrder} {orders : List RevealedOrder}

theorem healthyOrders_cons_of_le (h : minQuantity ≤ o.order.quantity) :
    healthyOrders minQuantity (o :: orders) = o :: healthyOrders minQuantity orders :=
  List.filter_cons_of_pos (by simpa using h)

theorem healthyOrders_cons_of_not_le (h : ¬ minQuantity ≤ o.order.quantity) :
    healthyOrders minQuantity (o :: orders) = healthyOrders minQuantity orders :=
  List.filter_cons_of_neg (by simpa using h)

theorem mem_healthyOrders :
    o ∈ healthyOrders minQuantity orders ↔ o ∈ orders ∧ minQuantity ≤ o.order.quantity := by
  unfold healthyOrders
  rw [List.mem_filter, decide_eq_true_eq]

theorem PricesDescend.healthyOrders (h : PricesDescend orders) :
    PricesDescend (healthyOrders minQuantity orders) := h.filter _

theorem PricesAscend.healthyOrders (h : PricesAscend orders) :
    PricesAscend (healthyOrders minQuantity orders) := h.filter _

/-- The healthy orders behind a healthy one keep the order. -/
theorem pricesDescend_cons_healthy (h : PricesDescend (o :: orders))
    (ho : minQuantity ≤ o.order.quantity) :
    PricesDescend (o :: healthyOrders minQuantity orders) := by
  rw [← healthyOrders_cons_of_le ho]
  exact h.healthyOrders

theorem pricesAscend_cons_healthy (h : PricesAscend (o :: orders))
    (ho : minQuantity ≤ o.order.quantity) :
    PricesAscend (o :: healthyOrders minQuantity orders) := by
  rw [← healthyOrders_cons_of_le ho]
  exact h.healthyOrders

/-- A counterparty among the healthy orders is one among all. -/
theorem crossesSell_of_healthyOrders {buy : RevealedOrder}
    (h : crossesSell (healthyOrders minQuantity orders) buy = true) :
    crossesSell orders buy = true := by
  rw [crossesSell_eq_true_iff] at h ⊢
  obtain ⟨sell, hsell, htrade⟩ := h
  exact ⟨sell, (mem_healthyOrders.mp hsell).1, htrade⟩

theorem crossesBuy_of_healthyOrders {sell : RevealedOrder}
    (h : crossesBuy (healthyOrders minQuantity orders) sell = true) :
    crossesBuy orders sell = true := by
  rw [crossesBuy_eq_true_iff] at h ⊢
  obtain ⟨buy, hbuy, htrade⟩ := h
  exact ⟨buy, (mem_healthyOrders.mp hbuy).1, htrade⟩

end

/-- A queue without its dust.  Dust at the head is never filled, so behind it the next
healthy order has its full quantity. -/
def OrderQueue.withoutDust (minQuantity : UInt64) (q : OrderQueue) : OrderQueue :=
  match q.orders with
  | [] => full []
  | o :: orders =>
      if minQuantity ≤ o.order.quantity then
        ⟨o :: healthyOrders minQuantity orders, q.remaining⟩
      else full (healthyOrders minQuantity orders)

/-- The orders ahead without their dust. -/
def OpenOrders.withoutDust (minQuantity : UInt64) (o : OpenOrders) : OpenOrders :=
  ⟨o.buys.withoutDust minQuantity, o.sells.withoutDust minQuantity⟩

namespace OrderQueue

variable {minQuantity : UInt64} {o : RevealedOrder} {orders : List RevealedOrder} {r : UInt64}

theorem withoutDust_of_le (h : minQuantity ≤ o.order.quantity) :
    (OrderQueue.mk (o :: orders) r).withoutDust minQuantity
      = ⟨o :: healthyOrders minQuantity orders, r⟩ := if_pos h

theorem withoutDust_of_not_le (h : ¬ minQuantity ≤ o.order.quantity) :
    (OrderQueue.mk (o :: orders) r).withoutDust minQuantity
      = full (healthyOrders minQuantity orders) := if_neg h

theorem withoutDust_full :
    (full orders).withoutDust minQuantity = full (healthyOrders minQuantity orders) := by
  cases orders with
  | nil => rfl
  | cons o orders =>
      rw [full_cons]
      by_cases h : minQuantity ≤ o.order.quantity
      · rw [withoutDust_of_le h, healthyOrders_cons_of_le h, full_cons]
      · rw [withoutDust_of_not_le h, healthyOrders_cons_of_not_le h]

/-- Taking a fill off a healthy order commutes with leaving the dust out. -/
theorem withoutDust_take (h : minQuantity ≤ o.order.quantity) (fillQty : UInt64) :
    ((OrderQueue.mk (o :: orders) r).take fillQty).withoutDust minQuantity
      = (OrderQueue.mk (o :: healthyOrders minQuantity orders) r).take fillQty := by
  unfold take
  dsimp only
  split_ifs
  · rw [next_cons, next_cons, withoutDust_full]
  · exact withoutDust_of_le h

/-- Without its dust a queue holds its healthy orders. -/
theorem exists_withoutDust_eq (minQuantity : UInt64) (q : OrderQueue) :
    ∃ r, q.withoutDust minQuantity = ⟨healthyOrders minQuantity q.orders, r⟩ := by
  obtain ⟨orders, r⟩ := q
  cases orders with
  | nil => exact ⟨_, rfl⟩
  | cons o orders =>
      by_cases h : minQuantity ≤ o.order.quantity
      · exact ⟨r, by rw [withoutDust_of_le h, healthyOrders_cons_of_le h]⟩
      · exact ⟨_, by rw [withoutDust_of_not_le h, healthyOrders_cons_of_not_le h, full]⟩

end OrderQueue

/-! ## Where dust misleads the loop -/

/-- Would a sell at the head, which only stands in the way, cost a buy of its own NFT its
turn?  It does when both still have a counterparty of another NFT and every buy before
that one is of the same NFT. -/
def CostsOwnBuy (sell : RevealedOrder) (buys sells : List RevealedOrder) : Prop :=
  crossesBuy buys sell = true ∧
    ∃ own ∈ buys.takeWhile (fun b => b.order.nftId = sell.order.nftId),
      crossesSell sells own = true

instance (sell : RevealedOrder) (buys sells : List RevealedOrder) :
    Decidable (CostsOwnBuy sell buys sells) :=
  inferInstanceAs (Decidable (_ ∧ _))

namespace OpenOrders

/-- A self-trade skips a buy that has enough left and a healthy sell of another NFT ahead,
because its own sell has some counterparty.  Without dust the buy would stay: the next
healthy sell is of another NFT or has no healthy counterparty. -/
def SkipsLiveBuy (minQuantity : UInt64) (o : OpenOrders) : Prop :=
  match o.buys.orders, o.sells.orders with
  | buy :: _, sell :: _ =>
      sell.order.price ≤ buy.order.price ∧ buy.order.nftId = sell.order.nftId ∧
        crossesBuy o.buys.orders sell = true ∧
        minQuantity ≤ o.buys.remaining ∧
        crossesSell (healthyOrders minQuantity o.sells.orders) buy = true ∧
        ∀ next ∈ (healthyOrders minQuantity o.sells.orders).head?,
          next.order.nftId = buy.order.nftId →
            crossesBuy (healthyOrders minQuantity o.buys.orders) next = false
  | _, _ => False

/-- A dust buy removes the remainder of a sell that, without dust, would cost a buy of its
own NFT its turn. -/
def DropsOwnRemainder (minQuantity : UInt64) (o : OpenOrders) : Prop :=
  match o.buys.orders, o.sells.orders with
  | buy :: _, sell :: _ =>
      sell.order.price ≤ buy.order.price ∧ buy.order.nftId ≠ sell.order.nftId ∧
        buy.order.quantity < minQuantity ∧ minQuantity ≤ sell.order.quantity ∧
        o.sells.remaining < o.buys.remaining ∧
        CostsOwnBuy sell (healthyOrders minQuantity o.buys.orders)
          (healthyOrders minQuantity o.sells.orders)
  | _, _ => False

/-- Dust changes which healthy order the loop gives up here. -/
def DustMisleads (minQuantity : UInt64) (o : OpenOrders) : Prop :=
  o.SkipsLiveBuy minQuantity ∨ o.DropsOwnRemainder minQuantity

instance (minQuantity : UInt64) (o : OpenOrders) : Decidable (o.SkipsLiveBuy minQuantity) := by
  unfold SkipsLiveBuy
  split <;> infer_instance

instance (minQuantity : UInt64) (o : OpenOrders) :
    Decidable (o.DropsOwnRemainder minQuantity) := by
  unfold DropsOwnRemainder
  split <;> infer_instance

instance (minQuantity : UInt64) (o : OpenOrders) : Decidable (o.DustMisleads minQuantity) :=
  inferInstanceAs (Decidable (_ ∨ _))

end OpenOrders

/-! ## Orders that can be dropped -/

/-- If the first orders do not cross, no orders do. -/
theorem forall_lt_of_head {buy sell : RevealedOrder} {buys sells : List RevealedOrder}
    (hbuys : PricesDescend (buy :: buys)) (hsells : PricesAscend (sell :: sells))
    (h : ¬ sell.order.price ≤ buy.order.price) :
    ∀ b ∈ buy :: buys, ∀ t ∈ sell :: sells, b.order.price < t.order.price := by
  intro b hb t ht
  rw [← UInt64.not_le]
  exact fun hle => h (head_crosses hbuys hsells hb ht hle)

namespace Book

variable [Externals] (B : Book)

/-- Where no orders cross, the walk is over. -/
theorem walk_of_forall_lt {buys sells : OrderQueue}
    (h : ∀ b ∈ buys.orders, ∀ t ∈ sells.orders, b.order.price < t.order.price) :
    B.walk.outputs ⟨buys, sells⟩ = [] := by
  obtain ⟨buys, r⟩ := buys
  obtain ⟨sells, s⟩ := sells
  cases buys with
  | nil => exact B.walk_nil_buys r _
  | cons buy buys =>
      cases sells with
      | nil => exact B.walk_nil_sells s _
      | cons sell sells =>
          exact B.walk_of_lt (h buy List.mem_cons_self sell List.mem_cons_self)

section

variable {buy sell : RevealedOrder} {buys sells : List RevealedOrder} {r s : UInt64}

/-- A buy without a counterparty of another NFT can be dropped. -/
theorem walk_drop_doomed_buy (hbuys : PricesDescend (buy :: buys)) (hsells : PricesAscend sells)
    (hdoomed : crossesSell sells buy = false) :
    B.walk.outputs ⟨⟨buy :: buys, r⟩, ⟨sells, s⟩⟩
      = B.walk.outputs ⟨.full buys, ⟨sells, s⟩⟩ := by
  cases sells with
  | nil => rw [walk_nil_sells, walk_nil_sells]
  | cons sell sells =>
      by_cases hcross : sell.order.price ≤ buy.order.price
      · have hnft : buy.order.nftId = sell.order.nftId := by
          by_contra hne
          have : crossesSell (sell :: sells) buy = true :=
            crossesSell_eq_true_iff.mpr ⟨sell, List.mem_cons_self, hne, hcross⟩
          rw [hdoomed] at this
          exact Bool.false_ne_true this
        rw [B.walk_self hcross hnft, hdoomed, Bool.false_and, if_neg Bool.false_ne_true]
      · have hlt := forall_lt_of_head hbuys hsells hcross
        rw [B.walk_of_forall_lt hlt,
          B.walk_of_forall_lt fun b hb t ht => hlt b (List.mem_cons_of_mem _ hb) t ht]

/-- A sell without a counterparty of another NFT can be dropped. -/
theorem walk_drop_doomed_sell (hbuys : PricesDescend buys) (hsells : PricesAscend (sell :: sells))
    (hdoomed : crossesBuy buys sell = false) :
    B.walk.outputs ⟨⟨buys, r⟩, ⟨sell :: sells, s⟩⟩
      = B.walk.outputs ⟨⟨buys, r⟩, .full sells⟩ := by
  induction buys generalizing r with
  | nil => rw [walk_nil_buys, walk_nil_buys]
  | cons buy buys ih =>
      by_cases hcross : sell.order.price ≤ buy.order.price
      · have hnft : buy.order.nftId = sell.order.nftId := by
          by_contra hne
          have : crossesBuy (buy :: buys) sell = true :=
            crossesBuy_eq_true_iff.mpr ⟨buy, List.mem_cons_self, hne, hcross⟩
          rw [hdoomed] at this
          exact Bool.false_ne_true this
        rw [B.walk_self hcross hnft, hdoomed, Bool.not_false, Bool.and_true]
        split_ifs with hbuy
        · rfl
        · -- both are doomed: the buy goes first here, the sell on the other side
          have hdoomed' : crossesBuy buys sell = false := by
            rw [crossesBuy, List.any_cons, Bool.or_eq_false_iff] at hdoomed
            exact hdoomed.2
          have hbuy' : crossesSell sells buy = false := by
            rw [Bool.not_eq_true, crossesSell, List.any_cons, Bool.or_eq_false_iff] at hbuy
            exact hbuy.2
          rw [OrderQueue.full, ih hbuys.of_cons hdoomed']
          exact (B.walk_drop_doomed_buy hbuys hsells.of_cons hbuy').symm
      · have hlt := forall_lt_of_head hbuys hsells hcross
        rw [B.walk_of_forall_lt hlt,
          B.walk_of_forall_lt fun b hb t ht => hlt b hb t (List.mem_cons_of_mem _ ht)]

/-- A buy with less than the minimum left can be dropped, if every sell still has its full
healthy quantity. -/
theorem walk_drop_dead_buy (hbuys : PricesDescend (buy :: buys)) (hsells : PricesAscend sells)
    (hhealthy : ∀ t ∈ sells, B.minQuantity ≤ t.order.quantity) (hdead : r < B.minQuantity) :
    B.walk.outputs ⟨⟨buy :: buys, r⟩, .full sells⟩
      = B.walk.outputs ⟨.full buys, .full sells⟩ := by
  induction sells with
  | nil => rw [OrderQueue.full, walk_nil_sells, walk_nil_sells]
  | cons sell sells ih =>
      rw [OrderQueue.full_cons]
      by_cases hcross : sell.order.price ≤ buy.order.price
      · by_cases hnft : buy.order.nftId = sell.order.nftId
        · rw [B.walk_self hcross hnft]
          split_ifs with hskip
          · -- the sell that is skipped is doomed
            rw [Bool.and_eq_true, Bool.not_eq_true', crossesBuy, List.any_cons,
              Bool.or_eq_false_iff] at hskip
            rw [ih hsells.of_cons fun t ht => hhealthy t (List.mem_cons_of_mem _ ht)]
            exact (B.walk_drop_doomed_sell hbuys.of_cons hsells hskip.2.2).symm
          · rfl
        · have hle : r ≤ sell.order.quantity :=
            UInt64.le_of_lt (UInt64.lt_of_lt_of_le hdead (hhealthy sell List.mem_cons_self))
          rw [B.walk_dust hcross hnft (by rw [min_of_le hle]; exact hdead), if_pos hle]
      · have hlt := forall_lt_of_head hbuys hsells hcross
        rw [B.walk_of_forall_lt hlt,
          B.walk_of_forall_lt fun b hb t ht => hlt b (List.mem_cons_of_mem _ hb) t ht]

/-- A sell with less than the minimum left can be dropped, if every buy still has its full
healthy quantity and the sell costs no buy of its own NFT its turn. -/
theorem walk_drop_dead_sell (hbuys : PricesDescend buys) (hsells : PricesAscend (sell :: sells))
    (hhealthy : ∀ b ∈ buys, B.minQuantity ≤ b.order.quantity) (hdead : s < B.minQuantity)
    (hcost : ¬ CostsOwnBuy sell buys (sell :: sells)) :
    B.walk.outputs ⟨.full buys, ⟨sell :: sells, s⟩⟩
      = B.walk.outputs ⟨.full buys, .full sells⟩ := by
  induction buys with
  | nil => rw [OrderQueue.full, walk_nil_buys, walk_nil_buys]
  | cons buy buys ih =>
      rw [OrderQueue.full_cons]
      by_cases hcross : sell.order.price ≤ buy.order.price
      · by_cases hnft : buy.order.nftId = sell.order.nftId
        · rw [B.walk_self hcross hnft]
          split_ifs with hskip
          · rfl
          · have hdoomed : crossesSell (sell :: sells) buy = false := by
              rw [Bool.and_eq_true, Bool.not_eq_true', not_and, Bool.not_eq_false] at hskip
              by_contra hbuy
              rw [Bool.not_eq_false] at hbuy
              refine hcost ⟨hskip hbuy, buy, ?_, hbuy⟩
              rw [List.takeWhile_cons_of_pos (by simpa using hnft)]
              exact List.mem_cons_self
            -- the buy that is skipped is doomed, the sell meets the next one
            have hcost' : ¬ CostsOwnBuy sell buys (sell :: sells) := by
              rintro ⟨hsell, own, hown, hcrosses⟩
              refine hcost ⟨?_, own, ?_, hcrosses⟩
              · rw [crossesBuy, List.any_cons, Bool.or_eq_true]
                exact .inr hsell
              · rw [List.takeWhile_cons_of_pos (by simpa using hnft)]
                exact List.mem_cons_of_mem _ hown
            rw [ih hbuys.of_cons (fun b hb => hhealthy b (List.mem_cons_of_mem _ hb)) hcost']
            rw [crossesSell, List.any_cons, Bool.or_eq_false_iff] at hdoomed
            exact (B.walk_drop_doomed_buy hbuys hsells.of_cons hdoomed.2).symm
        · have hlt : s < buy.order.quantity :=
            UInt64.lt_of_lt_of_le hdead (hhealthy buy List.mem_cons_self)
          have hnle := UInt64.not_le.mpr hlt
          rw [B.walk_dust hcross hnft (by rw [min_of_not_le hnle]; exact hdead), if_neg hnle]
      · have hlt := forall_lt_of_head hbuys hsells hcross
        rw [B.walk_of_forall_lt hlt,
          B.walk_of_forall_lt fun b hb t ht => hlt b hb t (List.mem_cons_of_mem _ ht)]

end

end Book

/-! ## The two walks -/

/-- At most one side is partly filled, and no remainder exceeds its order's quantity. -/
structure OpenOrders.Consistent (o : OpenOrders) : Prop where
  buys_le : o.buys.remaining ≤ quantityAt o.buys.orders 0
  sells_le : o.sells.remaining ≤ quantityAt o.sells.orders 0
  fresh : o.buys = .full o.buys.orders ∨ o.sells = .full o.sells.orders

/-- What holds of the orders ahead along a walk over price-sorted books. -/
structure OpenOrders.Sorted (o : OpenOrders) : Prop where
  buys : PricesDescend o.buys.orders
  sells : PricesAscend o.sells.orders
  consistent : o.Consistent

namespace OpenOrders.Consistent

theorem full (buys sells : List RevealedOrder) : (OpenOrders.full buys sells).Consistent :=
  ⟨UInt64.le_refl _, UInt64.le_refl _, .inl rfl⟩

theorem nextBuy {o : OpenOrders} (h : o.Consistent) : o.nextBuy.Consistent :=
  ⟨UInt64.le_refl _, h.sells_le, .inl rfl⟩

theorem nextSell {o : OpenOrders} (h : o.Consistent) : o.nextSell.Consistent :=
  ⟨h.buys_le, UInt64.le_refl _, .inr rfl⟩

/-- What is left after a fill does not exceed the quantity of its order. -/
theorem take_le {q : OrderQueue} {fillQty : UInt64} (hq : q.remaining ≤ quantityAt q.orders 0)
    (hfill : fillQty ≤ q.remaining) :
    (q.take fillQty).remaining ≤ quantityAt (q.take fillQty).orders 0 := by
  unfold OrderQueue.take
  split_ifs
  · exact UInt64.le_refl _
  · exact UInt64.le_trans (UInt64.sub_le hfill) hq

theorem fill {o : OpenOrders} (h : o.Consistent) :
    (o.fill (min o.buys.remaining o.sells.remaining)).Consistent := by
  obtain ⟨hr, hs⟩ := fill_le o.buys.remaining o.sells.remaining
  refine ⟨take_le h.buys_le hr, take_le h.sells_le hs, ?_⟩
  rcases Book.sub_min_eq_zero o.buys.remaining o.sells.remaining with hzero | hzero
  · left
    rw [OpenOrders.fill, OrderQueue.take, if_pos hzero]
    rfl
  · right
    rw [OpenOrders.fill, OrderQueue.take, OrderQueue.take, if_pos hzero]
    rfl

end OpenOrders.Consistent

namespace Book

variable [Externals] (B : Book)

section

variable {buy sell : RevealedOrder} {buys sells : List RevealedOrder} {r s : UInt64}

omit [Externals] in
/-- A remainder under the minimum of a healthy order leaves the other side untouched. -/
theorem sells_full_of_dead_buy
    (h : OpenOrders.Consistent ⟨⟨buy :: buys, r⟩, ⟨sell :: sells, s⟩⟩)
    (hbuy : B.minQuantity ≤ buy.order.quantity) (hdead : r < B.minQuantity) :
    s = sell.order.quantity := by
  rcases h.fresh with hfull | hfull
  · have : r = buy.order.quantity := congrArg OrderQueue.remaining hfull
    rw [this] at hdead
    exact absurd hbuy (UInt64.not_le.mpr hdead)
  · exact congrArg OrderQueue.remaining hfull

omit [Externals] in
theorem buys_full_of_dead_sell
    (h : OpenOrders.Consistent ⟨⟨buy :: buys, r⟩, ⟨sell :: sells, s⟩⟩)
    (hsell : B.minQuantity ≤ sell.order.quantity) (hdead : s < B.minQuantity) :
    r = buy.order.quantity := by
  rcases h.fresh with hfull | hfull
  · exact congrArg OrderQueue.remaining hfull
  · have : s = sell.order.quantity := congrArg OrderQueue.remaining hfull
    rw [this] at hdead
    exact absurd hsell (UInt64.not_le.mpr hdead)

/-- What the walk emits from the orders ahead once their dust is left out. -/
def emittedWithoutDust (o : OpenOrders) : List Match :=
  B.walk.outputs (o.withoutDust B.minQuantity)

/-- A sell that the loop skips as doomed can be skipped without the dust. -/
theorem withoutDust_skipSell (hbuys : PricesDescend (buy :: buys))
    (hsells : PricesAscend (sell :: sells)) (hdoomed : crossesBuy (buy :: buys) sell = false) :
    B.emittedWithoutDust ⟨⟨buy :: buys, r⟩, ⟨sell :: sells, s⟩⟩
      = B.emittedWithoutDust ⟨⟨buy :: buys, r⟩, .full sells⟩ := by
  unfold emittedWithoutDust OpenOrders.withoutDust
  dsimp only
  rw [OrderQueue.withoutDust_full]
  by_cases hsell : B.minQuantity ≤ sell.order.quantity
  · have hsells' := pricesAscend_cons_healthy hsells hsell
    obtain ⟨r', hq⟩ := OrderQueue.exists_withoutDust_eq B.minQuantity ⟨buy :: buys, r⟩
    rw [OrderQueue.withoutDust_of_le hsell, hq]
    refine B.walk_drop_doomed_sell hbuys.healthyOrders hsells' ?_
    by_contra hcrosses
    rw [Bool.not_eq_false] at hcrosses
    rw [crossesBuy_of_healthyOrders hcrosses] at hdoomed
    exact Bool.noConfusion hdoomed
  · rw [OrderQueue.withoutDust_of_not_le hsell]

/-- A healthy buy that has too little left to be filled can be skipped without the dust. -/
theorem withoutDust_deadBuy (hbuys : PricesDescend (buy :: buys))
    (hsells : PricesAscend (sell :: sells))
    (hconsistent : OpenOrders.Consistent ⟨⟨buy :: buys, r⟩, ⟨sell :: sells, s⟩⟩)
    (hbuy : B.minQuantity ≤ buy.order.quantity) (hdead : r < B.minQuantity) :
    B.emittedWithoutDust ⟨⟨buy :: buys, r⟩, ⟨sell :: sells, s⟩⟩
      = B.emittedWithoutDust ⟨.full buys, ⟨sell :: sells, s⟩⟩ := by
  have hs := B.sells_full_of_dead_buy hconsistent hbuy hdead
  unfold emittedWithoutDust OpenOrders.withoutDust
  dsimp only
  rw [OrderQueue.withoutDust_full, OrderQueue.withoutDust_of_le hbuy, hs, ← OrderQueue.full_cons,
    OrderQueue.withoutDust_full]
  exact B.walk_drop_dead_buy (pricesDescend_cons_healthy hbuys hbuy) hsells.healthyOrders
    (fun t ht => (mem_healthyOrders.mp ht).2) hdead

/-- A buy that the loop skips for its own sell can be skipped without the dust, if the
dust did not mislead the loop. -/
theorem withoutDust_skipBuy (hbuys : PricesDescend (buy :: buys))
    (hsells : PricesAscend (sell :: sells))
    (hconsistent : OpenOrders.Consistent ⟨⟨buy :: buys, r⟩, ⟨sell :: sells, s⟩⟩)
    (hcross : sell.order.price ≤ buy.order.price) (hnft : buy.order.nftId = sell.order.nftId)
    (hskip : crossesSell (sell :: sells) buy = true → crossesBuy (buy :: buys) sell = true)
    (hlive : ¬ OpenOrders.SkipsLiveBuy B.minQuantity
      ⟨⟨buy :: buys, r⟩, ⟨sell :: sells, s⟩⟩) :
    B.emittedWithoutDust ⟨⟨buy :: buys, r⟩, ⟨sell :: sells, s⟩⟩
      = B.emittedWithoutDust ⟨.full buys, ⟨sell :: sells, s⟩⟩ := by
  by_cases hdead : B.minQuantity ≤ buy.order.quantity ∧ r < B.minQuantity
  · -- the buy has too little left to be filled
    exact B.withoutDust_deadBuy hbuys hsells hconsistent hdead.1 hdead.2
  unfold emittedWithoutDust OpenOrders.withoutDust
  dsimp only
  rw [OrderQueue.withoutDust_full]
  by_cases hbuy : B.minQuantity ≤ buy.order.quantity
  · have hhealthy : healthyOrders B.minQuantity (buy :: buys)
        = buy :: healthyOrders B.minQuantity buys := healthyOrders_cons_of_le hbuy
    have hbuys' := pricesDescend_cons_healthy hbuys hbuy
    have hsells' : PricesAscend (healthyOrders B.minQuantity (sell :: sells)) :=
      hsells.healthyOrders
    rw [OrderQueue.withoutDust_of_le hbuy]
    obtain ⟨s', hq⟩ := OrderQueue.exists_withoutDust_eq B.minQuantity ⟨sell :: sells, s⟩
    cases hcounter : crossesSell (healthyOrders B.minQuantity (sell :: sells)) buy with
    | false =>
        -- the buy is doomed among the healthy orders
        rw [hq]
        exact B.walk_drop_doomed_buy hbuys' hsells' hcounter
    | true =>
        -- the next healthy sell makes the loop skip the buy all the same
        have hleft : B.minQuantity ≤ r := UInt64.not_lt.mp fun h => hdead ⟨hbuy, h⟩
        have hsome := crossesSell_of_healthyOrders hcounter
        obtain ⟨next, hnext, hown, hcounter'⟩ : ∃ next,
            next ∈ (healthyOrders B.minQuantity (sell :: sells)).head? ∧
            next.order.nftId = buy.order.nftId ∧
            crossesBuy (healthyOrders B.minQuantity (buy :: buys)) next = true := by
          by_contra hnone
          refine hlive ⟨hcross, hnft, hskip hsome, hleft, hcounter, ?_⟩
          intro next hnext hown
          by_contra hcrosses
          exact hnone ⟨next, hnext, hown, by simpa using hcrosses⟩
        obtain ⟨rest, hrest⟩ := List.head?_eq_some_iff.mp hnext
        rw [hrest] at hq hsells' hcounter
        obtain ⟨t, ht, htrade⟩ := crossesSell_eq_true_iff.mp hcounter
        have hcross' := head_crosses hbuys' hsells' List.mem_cons_self ht htrade.2
        rw [hq, B.walk_self hcross' hown.symm, ← hhealthy, hcounter', Bool.not_true,
          Bool.and_false, if_neg Bool.false_ne_true]
  · rw [OrderQueue.withoutDust_of_not_le hbuy]

/-- Skipping a buy that is too small for the sell, without the dust. -/
theorem withoutDust_dustBuy (hbuys : PricesDescend (buy :: buys))
    (hsells : PricesAscend (sell :: sells))
    (hconsistent : OpenOrders.Consistent ⟨⟨buy :: buys, r⟩, ⟨sell :: sells, s⟩⟩)
    (hmin : min r s < B.minQuantity) (hle : r ≤ s) :
    B.emittedWithoutDust ⟨⟨buy :: buys, r⟩, ⟨sell :: sells, s⟩⟩
      = B.emittedWithoutDust ⟨.full buys, ⟨sell :: sells, s⟩⟩ := by
  by_cases hbuy : B.minQuantity ≤ buy.order.quantity
  · have hdead : r < B.minQuantity := by rwa [min_of_le hle] at hmin
    exact B.withoutDust_deadBuy hbuys hsells hconsistent hbuy hdead
  · unfold emittedWithoutDust OpenOrders.withoutDust
    dsimp only
    rw [OrderQueue.withoutDust_full, OrderQueue.withoutDust_of_not_le hbuy]

/-- Skipping a sell that is too small for the buy, without the dust. -/
theorem withoutDust_dustSell (hbuys : PricesDescend (buy :: buys))
    (hsells : PricesAscend (sell :: sells))
    (hconsistent : OpenOrders.Consistent ⟨⟨buy :: buys, r⟩, ⟨sell :: sells, s⟩⟩)
    (hcross : sell.order.price ≤ buy.order.price)
    (hnft : buy.order.nftId ≠ sell.order.nftId) (hmin : min r s < B.minQuantity) (hlt : ¬ r ≤ s)
    (hown : ¬ OpenOrders.DropsOwnRemainder B.minQuantity
      ⟨⟨buy :: buys, r⟩, ⟨sell :: sells, s⟩⟩) :
    B.emittedWithoutDust ⟨⟨buy :: buys, r⟩, ⟨sell :: sells, s⟩⟩
      = B.emittedWithoutDust ⟨⟨buy :: buys, r⟩, .full sells⟩ := by
  unfold emittedWithoutDust OpenOrders.withoutDust
  dsimp only
  rw [OrderQueue.withoutDust_full]
  have hdead : s < B.minQuantity := by rwa [min_of_not_le hlt] at hmin
  by_cases hsell : B.minQuantity ≤ sell.order.quantity
  · have hr := B.buys_full_of_dead_sell hconsistent hsell hdead
    have hhealthy : healthyOrders B.minQuantity (sell :: sells)
        = sell :: healthyOrders B.minQuantity sells := healthyOrders_cons_of_le hsell
    have hsells' := pricesAscend_cons_healthy hsells hsell
    rw [OrderQueue.withoutDust_of_le hsell]
    by_cases hbuy : B.minQuantity ≤ buy.order.quantity
    · -- without the dust the two orders meet as well
      rw [OrderQueue.withoutDust_of_le hbuy, B.walk_dust hcross hnft hmin, if_neg hlt]
    · -- without the dust the remainder of the sell stays for the next buys
      rw [hr, ← OrderQueue.full_cons, OrderQueue.withoutDust_full]
      refine B.walk_drop_dead_sell hbuys.healthyOrders hsells'
        (fun b hb => (mem_healthyOrders.mp hb).2) hdead ?_
      intro hcost
      rw [← hhealthy] at hcost
      exact hown ⟨hcross, hnft, UInt64.not_le.mp hbuy, hsell, UInt64.not_le.mp hlt, hcost⟩
  · rw [OrderQueue.withoutDust_of_not_le hsell]

/-- The iterations of the walk between two crossing orders. -/
inductive WalkStep (buy : RevealedOrder) (buys : List RevealedOrder) (r : UInt64)
    (sell : RevealedOrder) (sells : List RevealedOrder) (s : UInt64) :
    OpenOrders → Option Match → Prop
  | skipSell (hdoomed : crossesBuy (buy :: buys) sell = false) :
      WalkStep buy buys r sell sells s ⟨⟨buy :: buys, r⟩, .full sells⟩ none
  | skipBuy (hnft : buy.order.nftId = sell.order.nftId)
      (hskip : crossesSell (sell :: sells) buy = true → crossesBuy (buy :: buys) sell = true) :
      WalkStep buy buys r sell sells s ⟨.full buys, ⟨sell :: sells, s⟩⟩ none
  | dustBuy (hmin : min r s < B.minQuantity) (hle : r ≤ s) :
      WalkStep buy buys r sell sells s ⟨.full buys, ⟨sell :: sells, s⟩⟩ none
  | dustSell (hnft : buy.order.nftId ≠ sell.order.nftId) (hmin : min r s < B.minQuantity)
      (hlt : ¬ r ≤ s) :
      WalkStep buy buys r sell sells s ⟨⟨buy :: buys, r⟩, .full sells⟩ none
  | fill (hnft : buy.order.nftId ≠ sell.order.nftId) (hmin : B.minQuantity ≤ min r s) :
      WalkStep buy buys r sell sells s
        (OpenOrders.fill ⟨⟨buy :: buys, r⟩, ⟨sell :: sells, s⟩⟩ (min r s))
        (some (B.makeMatch buy sell (min r s)))

/-- An iteration meets an order on either side. -/
theorem exists_cons_of_walkStep {o o' : OpenOrders} {m : Option Match}
    (h : B.walkStep o = some (o', m)) :
    ∃ buy buys r sell sells s, o = ⟨⟨buy :: buys, r⟩, ⟨sell :: sells, s⟩⟩ := by
  obtain ⟨⟨buys, r⟩, ⟨sells, s⟩⟩ := o
  cases buys with
  | nil => simp [walkStep] at h
  | cons buy buys =>
      cases sells with
      | nil => simp [walkStep] at h
      | cons sell sells => exact ⟨buy, buys, r, sell, sells, s, rfl⟩

/-- **Inversion of an iteration of the walk.** -/
theorem walkStep_cases {o' : OpenOrders} {m : Option Match}
    (h : B.walkStep ⟨⟨buy :: buys, r⟩, ⟨sell :: sells, s⟩⟩ = some (o', m)) :
    sell.order.price ≤ buy.order.price ∧ B.WalkStep buy buys r sell sells s o' m := by
  simp only [walkStep] at h
  split_ifs at h with hprice hnft hskip hmin hle
  all_goals
    obtain ⟨rfl, rfl⟩ := Prod.mk.inj (Option.some.inj h)
    refine ⟨UInt64.not_lt.mp hprice, ?_⟩
  · rw [Bool.and_eq_true, Bool.not_eq_true'] at hskip
    exact .skipSell hskip.2
  · rw [Bool.and_eq_true, Bool.not_eq_true', not_and, Bool.not_eq_false] at hskip
    exact .skipBuy hnft hskip
  · exact .dustBuy hmin hle
  · exact .dustSell hnft hmin hle
  · exact .fill hnft (UInt64.not_lt.mp hmin)

end

omit [Externals] in
/-- After a fill the orders of a side are the same, or all but the first. -/
theorem orders_take (q : OrderQueue) (fillQty : UInt64) :
    (q.take fillQty).orders = q.orders ∨ (q.take fillQty).orders = q.orders.tail := by
  unfold OrderQueue.take
  split_ifs
  · exact .inr rfl
  · exact .inl rfl

/-- When the walk ends, no orders ahead cross. -/
theorem forall_lt_of_walkStep_none {o : OpenOrders} (hbuys : PricesDescend o.buys.orders)
    (hsells : PricesAscend o.sells.orders) (h : B.walkStep o = none) :
    ∀ b ∈ o.buys.orders, ∀ t ∈ o.sells.orders, b.order.price < t.order.price := by
  obtain ⟨⟨buys, r⟩, ⟨sells, s⟩⟩ := o
  cases buys with
  | nil => simp
  | cons buy buys =>
      cases sells with
      | nil => simp
      | cons sell sells =>
          refine forall_lt_of_head hbuys hsells fun hcross => ?_
          simp only [walkStep, if_neg (UInt64.not_lt.mpr hcross)] at h
          split_ifs at h

/-- Filling two healthy orders commutes with leaving the dust out. -/
theorem withoutDust_fill {buy sell : RevealedOrder} {buys sells : List RevealedOrder}
    {r s : UInt64} (hcross : sell.order.price ≤ buy.order.price)
    (hnft : buy.order.nftId ≠ sell.order.nftId) (hmin : B.minQuantity ≤ min r s)
    (hbuy : B.minQuantity ≤ buy.order.quantity) (hsell : B.minQuantity ≤ sell.order.quantity) :
    B.emittedWithoutDust ⟨⟨buy :: buys, r⟩, ⟨sell :: sells, s⟩⟩
      = B.makeMatch buy sell (min r s) :: B.emittedWithoutDust
          (OpenOrders.fill ⟨⟨buy :: buys, r⟩, ⟨sell :: sells, s⟩⟩ (min r s)) := by
  unfold emittedWithoutDust OpenOrders.withoutDust OpenOrders.fill
  dsimp only
  rw [OrderQueue.withoutDust_of_le hbuy, OrderQueue.withoutDust_of_le hsell,
    OrderQueue.withoutDust_take hbuy, OrderQueue.withoutDust_take hsell,
    B.walk_fill hcross hnft hmin]

/-- **One iteration.**  From sorted orders ahead, an iteration that dust does not mislead
adds the same match to what is emitted without the dust, and leads to sorted orders. -/
theorem emittedWithoutDust_step {o o' : OpenOrders} {m : Option Match}
    (hstep : B.walkStep o = some (o', m)) (hsorted : o.Sorted)
    (hdust : ¬ o.DustMisleads B.minQuantity) :
    B.emittedWithoutDust o = m.toList ++ B.emittedWithoutDust o' := by
  obtain ⟨buy, buys, r, sell, sells, s, rfl⟩ := B.exists_cons_of_walkStep hstep
  obtain ⟨hbuys, hsells, hconsistent⟩ := hsorted
  obtain ⟨hcross, hcases⟩ := B.walkStep_cases hstep
  cases hcases with
  | skipSell hdoomed => exact B.withoutDust_skipSell hbuys hsells hdoomed
  | skipBuy hnft hskip =>
      exact B.withoutDust_skipBuy hbuys hsells hconsistent hcross hnft hskip
        fun h => hdust (.inl h)
  | dustBuy hmin hle =>
      exact B.withoutDust_dustBuy hbuys hsells hconsistent hmin hle
  | dustSell hnft hmin hlt =>
      exact B.withoutDust_dustSell hbuys hsells hconsistent hcross hnft hmin hlt
        fun h => hdust (.inr h)
  | fill hnft hmin =>
      obtain ⟨hr, hs⟩ := fill_le r s
      have hbuy : B.minQuantity ≤ buy.order.quantity :=
        UInt64.le_trans hmin (UInt64.le_trans hr hconsistent.buys_le)
      have hsell : B.minQuantity ≤ sell.order.quantity :=
        UInt64.le_trans hmin (UInt64.le_trans hs hconsistent.sells_le)
      exact B.withoutDust_fill hcross hnft hmin hbuy hsell

/-- The orders ahead stay sorted. -/
theorem sorted_step {o o' : OpenOrders} {m : Option Match}
    (hstep : B.walkStep o = some (o', m)) (hsorted : o.Sorted) : o'.Sorted := by
  obtain ⟨buy, buys, r, sell, sells, s, rfl⟩ := B.exists_cons_of_walkStep hstep
  obtain ⟨hbuys, hsells, hconsistent⟩ := hsorted
  obtain ⟨-, hcases⟩ := B.walkStep_cases hstep
  cases hcases with
  | skipSell | dustSell => exact ⟨hbuys, hsells.of_cons, hconsistent.nextSell⟩
  | skipBuy | dustBuy => exact ⟨hbuys.of_cons, hsells, hconsistent.nextBuy⟩
  | fill hnft hmin =>
      refine ⟨?_, ?_, hconsistent.fill⟩
      · rcases orders_take ⟨buy :: buys, r⟩ (min r s) with h | h
        · exact h ▸ hbuys
        · exact h ▸ hbuys.of_cons
      · rcases orders_take ⟨sell :: sells, s⟩ (min r s) with h | h
        · exact h ▸ hsells
        · exact h ▸ hsells.of_cons

/-- **Dust that never misleads the loop does not matter.**  The walk over all orders and
the walk over the healthy ones emit the same. -/
theorem walk_eq_emittedWithoutDust {o : OpenOrders} (hsorted : o.Sorted)
    (hdust : ∀ o' ∈ B.walk.states o, ¬ o'.DustMisleads B.minQuantity) :
    B.walk.outputs o = B.emittedWithoutDust o := by
  refine B.walk.outputs_induction
    (P := fun o os => o.Sorted → (∀ o' ∈ B.walk.states o, ¬ o'.DustMisleads B.minQuantity) →
      os = B.emittedWithoutDust o) ?_ ?_ o hsorted hdust
  · intro o hstep hsorted _
    have hlt := B.forall_lt_of_walkStep_none hsorted.buys hsorted.sells hstep
    obtain ⟨r, hr⟩ := OrderQueue.exists_withoutDust_eq B.minQuantity o.buys
    obtain ⟨s, hs⟩ := OrderQueue.exists_withoutDust_eq B.minQuantity o.sells
    rw [emittedWithoutDust, OpenOrders.withoutDust, hr, hs]
    refine (B.walk_of_forall_lt fun b hb t ht => ?_).symm
    exact hlt b (mem_healthyOrders.mp hb).1 t (mem_healthyOrders.mp ht).1
  · intro o o' m os hstep ih hsorted hdust
    rw [B.walk.states_of_some hstep] at hdust
    rw [B.emittedWithoutDust_step hstep hsorted (hdust o List.mem_cons_self),
      ih (B.sorted_step hstep hsorted) fun x hx => hdust x (List.mem_cons_of_mem _ hx)]

/-! ## Where the loop is misled -/

/-- The buys ahead only become fewer. -/
theorem buys_sublist_of_step {o o' : OpenOrders} {m : Option Match}
    (hstep : B.walkStep o = some (o', m)) :
    List.Sublist o'.buys.orders o.buys.orders := by
  obtain ⟨buy, buys, r, sell, sells, s, rfl⟩ := B.exists_cons_of_walkStep hstep
  obtain ⟨-, hcases⟩ := B.walkStep_cases hstep
  cases hcases with
  | skipSell | dustSell => exact List.Sublist.refl _
  | skipBuy | dustBuy => exact List.sublist_cons_self buy buys
  | fill =>
      rcases orders_take ⟨buy :: buys, r⟩ (min r s) with h | h
      · exact h ▸ List.Sublist.refl _
      · exact h ▸ List.tail_sublist _

/-- Every match that the walk emits is of a buy that lies ahead. -/
theorem buyer_mem_of_walk (o : OpenOrders) :
    ∀ m ∈ B.walk.outputs o, m.buyer ∈ o.buys.orders := by
  refine B.walk.outputs_induction (P := fun o os => ∀ m ∈ os, m.buyer ∈ o.buys.orders) ?_ ?_ o
  · simp
  · intro o o' m os hstep ih x hx
    rcases List.mem_append.mp hx with hx | hx
    · obtain ⟨buy, buys, r, sell, sells, s, rfl⟩ := B.exists_cons_of_walkStep hstep
      obtain ⟨-, hcases⟩ := B.walkStep_cases hstep
      cases hcases with
      | skipSell | skipBuy | dustBuy | dustSell => simp at hx
      | fill =>
          obtain rfl : x = B.makeMatch buy sell (min r s) := by simpa using hx
          exact List.mem_cons_self
    · exact (B.buys_sublist_of_step hstep).subset (ih x hx)

/-- In healthy books a buy with enough left and a counterparty ahead is matched, if the
next sell is of its own NFT and has no counterparty, or is of another NFT and has enough
left. -/
theorem live_buy_matched {buy : RevealedOrder} {buys sells : List RevealedOrder} {r s : UInt64}
    (hbuys : PricesDescend (buy :: buys)) (hsells : PricesAscend sells)
    (hhealthy : ∀ t ∈ sells, B.minQuantity ≤ t.order.quantity) (hlive : B.minQuantity ≤ r)
    (hcounter : crossesSell sells buy = true)
    (hown : ∀ next ∈ sells.head?, next.order.nftId = buy.order.nftId →
      crossesBuy (buy :: buys) next = false)
    (hother : ∀ next ∈ sells.head?, next.order.nftId ≠ buy.order.nftId → B.minQuantity ≤ s) :
    ∃ m ∈ B.walk.outputs ⟨⟨buy :: buys, r⟩, ⟨sells, s⟩⟩, m.buyer = buy := by
  induction sells generalizing s with
  | nil => simp [crossesSell] at hcounter
  | cons sell sells ih =>
      obtain ⟨t, ht, htrade⟩ := crossesSell_eq_true_iff.mp hcounter
      have hcross := head_crosses hbuys hsells List.mem_cons_self ht htrade.2
      by_cases hnft : buy.order.nftId = sell.order.nftId
      · have hdoomed := hown sell rfl hnft.symm
        rw [B.walk_self hcross hnft, hcounter, hdoomed, Bool.not_false, Bool.and_true, if_pos rfl]
        have hhealthy' : ∀ t ∈ sells, B.minQuantity ≤ t.order.quantity :=
          fun t ht => hhealthy t (List.mem_cons_of_mem _ ht)
        refine ih hsells.of_cons hhealthy' ?_ ?_ ?_
        · rcases List.mem_cons.mp ht with rfl | ht
          · exact absurd hnft htrade.1
          · exact crossesSell_eq_true_iff.mpr ⟨t, ht, htrade⟩
        · -- a counterparty of a later sell would be one of this cheaper sell
          intro next hnext hsame
          by_contra hcrosses
          rw [Bool.not_eq_false, crossesBuy_eq_true_iff] at hcrosses
          obtain ⟨b, hb, hne, hprice⟩ := hcrosses
          have hle : sell.order.price ≤ next.order.price :=
            List.rel_of_pairwise_cons hsells (List.mem_of_mem_head? hnext)
          have hsome : crossesBuy (buy :: buys) sell = true :=
            crossesBuy_eq_true_iff.mpr
              ⟨b, hb, by rw [← hnft, ← hsame]; exact hne, UInt64.le_trans hle hprice⟩
          rw [hdoomed] at hsome
          exact Bool.false_ne_true hsome
        · intro next hnext _
          obtain ⟨rest, rfl⟩ := List.head?_eq_some_iff.mp hnext
          exact hhealthy' next List.mem_cons_self
      · have hfill := le_min_of_le hlive (hother sell rfl (Ne.symm hnft))
        rw [B.walk_fill hcross hnft hfill]
        exact ⟨_, List.mem_cons_self, rfl⟩

/-- Where a live buy is skipped and no other buy equals it, the two walks differ: one of
them has a match of that buy, the other has none. -/
theorem walk_ne_of_skipsLiveBuy {o : OpenOrders} (hsorted : o.Sorted)
    (hdistinct : o.buys.orders.Nodup) (hskip : o.SkipsLiveBuy B.minQuantity) :
    B.walk.outputs o ≠ B.emittedWithoutDust o := by
  obtain ⟨⟨buys, r⟩, ⟨sells, s⟩⟩ := o
  obtain ⟨hbuys, hsells, hconsistent⟩ := hsorted
  cases buys with
  | nil => exact hskip.elim
  | cons buy buys =>
      cases sells with
      | nil => exact hskip.elim
      | cons sell sells =>
          obtain ⟨hcross, hnft, hsome, hlive, hcounter, hnext⟩ := hskip
          intro heq
          have hbuy : B.minQuantity ≤ buy.order.quantity :=
            UInt64.le_trans hlive hconsistent.buys_le
          have hbuys' : PricesDescend (healthyOrders B.minQuantity (buy :: buys)) :=
            hbuys.healthyOrders
          rw [healthyOrders_cons_of_le hbuy] at hbuys' hnext
          -- without dust the live buy is matched; the loop drops it before it can be
          obtain ⟨m, hm, rfl⟩ : ∃ m ∈ B.emittedWithoutDust ⟨⟨buy :: buys, r⟩, ⟨sell :: sells, s⟩⟩,
              m.buyer = buy := by
            unfold emittedWithoutDust OpenOrders.withoutDust
            dsimp only
            rw [OrderQueue.withoutDust_of_le hbuy]
            by_cases hsell : B.minQuantity ≤ sell.order.quantity
            · have hsells' : PricesAscend (healthyOrders B.minQuantity (sell :: sells)) :=
                hsells.healthyOrders
              rw [healthyOrders_cons_of_le hsell] at hsells' hcounter hnext
              rw [OrderQueue.withoutDust_of_le hsell]
              refine B.live_buy_matched hbuys' hsells' ?_ hlive hcounter hnext ?_
              · intro t ht
                rw [← healthyOrders_cons_of_le hsell] at ht
                exact (mem_healthyOrders.mp ht).2
              · intro next hnext' hne
                obtain rfl : sell = next := Option.some.inj hnext'
                exact absurd hnft.symm hne
            · rw [healthyOrders_cons_of_not_le hsell] at hcounter hnext
              rw [OrderQueue.withoutDust_of_not_le hsell]
              have hsells' : PricesAscend sells := hsells.of_cons
              refine B.live_buy_matched hbuys' hsells'.healthyOrders
                (fun t ht => (mem_healthyOrders.mp ht).2) hlive hcounter hnext ?_
              intro next hnext' _
              obtain ⟨rest, hrest⟩ := List.head?_eq_some_iff.mp hnext'
              rw [hrest]
              exact (mem_healthyOrders.mp (List.mem_of_mem_head? hnext')).2
          rw [← heq, B.walk_self hcross hnft, hsome, Bool.not_true, Bool.and_false,
            if_neg Bool.false_ne_true] at hm
          have hmem := B.buyer_mem_of_walk _ m hm
          exact (List.nodup_cons.mp hdistinct).1 hmem

/-- The first time that dust misleads the loop into skipping a live buy, the two walks part
for good. -/
theorem walk_ne_of_first_misled {o : OpenOrders} (hsorted : o.Sorted)
    (hdistinct : o.buys.orders.Nodup) {before after : List OpenOrders} {x : OpenOrders}
    (hstates : B.walk.states o = before ++ x :: after)
    (hbefore : ∀ o' ∈ before, ¬ o'.DustMisleads B.minQuantity)
    (hskip : x.SkipsLiveBuy B.minQuantity) : B.walk.outputs o ≠ B.emittedWithoutDust o := by
  induction before generalizing o with
  | nil =>
      have ho : o = x := by
        rcases B.walk.states_cases o with ⟨-, h⟩ | ⟨o', m, -, h⟩
        · rw [h] at hstates
          exact (List.cons.inj hstates).1
        · rw [h] at hstates
          exact (List.cons.inj hstates).1
      exact B.walk_ne_of_skipsLiveBuy hsorted hdistinct (ho ▸ hskip)
  | cons b before ih =>
      rcases B.walk.states_cases o with ⟨-, h⟩ | ⟨o', m, hstep, h⟩
      · rw [h] at hstates
        simp at hstates
      · rw [h, List.cons_append] at hstates
        obtain ⟨rfl, htail⟩ := List.cons.inj hstates
        have hne := ih (B.sorted_step hstep hsorted)
          ((B.buys_sublist_of_step hstep).nodup hdistinct) htail
          fun y hy => hbefore y (List.mem_cons_of_mem _ hy)
        rw [B.walk.outputs_of_some hstep,
          B.emittedWithoutDust_step hstep hsorted (hbefore o List.mem_cons_self)]
        exact fun heq => hne (List.append_cancel_left heq)

end Book

/-! ## Dust in `generateMatches` -/

section

variable [Externals] (batchId poolId : UInt64) (symbol : Bytes)
  {buys sells : List RevealedOrder} {minQuantity : UInt64}

/-- Matching the healthy orders is the walk without the dust. -/
theorem generateMatches_healthyOrders :
    generateMatches batchId poolId symbol (healthyOrders minQuantity buys)
        (healthyOrders minQuantity sells) minQuantity
      = (Book.mk batchId poolId symbol buys sells minQuantity).emittedWithoutDust
          (.full buys sells) := by
  rw [generateMatches_eq_walk]
  unfold Book.emittedWithoutDust OpenOrders.withoutDust OpenOrders.full
  rw [OrderQueue.withoutDust_full, OrderQueue.withoutDust_full]
  rfl

/-- **When dust cannot hurt.**  In price-sorted books, as long as no iteration of the loop
is misled by dust, matching gives the same list of matches as on the books without their
dust.  Conversely, if no two buys are equal, the lists differ as soon as the first
iteration that is misled skips a live buy. -/
theorem generateMatches_withoutDust (hbuys : PricesDescend buys) (hsells : PricesAscend sells) :
    let B : Book := ⟨batchId, poolId, symbol, buys, sells, minQuantity⟩
    ((∀ c ∈ B.loop.states B.start, ¬ (B.openAt c).DustMisleads minQuantity) →
      generateMatches batchId poolId symbol buys sells minQuantity
        = generateMatches batchId poolId symbol (healthyOrders minQuantity buys)
            (healthyOrders minQuantity sells) minQuantity) ∧
    (buys.Nodup → ∀ before c after, B.loop.states B.start = before ++ c :: after →
      (∀ c' ∈ before, ¬ (B.openAt c').DustMisleads minQuantity) →
      (B.openAt c).SkipsLiveBuy minQuantity →
      generateMatches batchId poolId symbol buys sells minQuantity
        ≠ generateMatches batchId poolId symbol (healthyOrders minQuantity buys)
            (healthyOrders minQuantity sells) minQuantity) := by
  intro B
  have hsorted : (OpenOrders.full buys sells).Sorted := ⟨hbuys, hsells, .full buys sells⟩
  have hstates : B.walk.states (.full buys sells) = (B.loop.states B.start).map B.openAt :=
    B.loop.states_refines B.walk B.openAt B.walkStep_openAt B.start
  rw [generateMatches_healthyOrders, generateMatches_eq_walk]
  constructor
  · intro hdust
    refine B.walk_eq_emittedWithoutDust hsorted ?_
    rw [hstates]
    intro o ho
    obtain ⟨c, hc, rfl⟩ := List.mem_map.mp ho
    exact hdust c hc
  · intro hdistinct before c after hsplit hbefore hskip
    rw [hsplit, List.map_append, List.map_cons] at hstates
    refine B.walk_ne_of_first_misled hsorted hdistinct hstates ?_ hskip
    intro o ho
    obtain ⟨c', hc', rfl⟩ := List.mem_map.mp ho
    exact hbefore c' hc'

end

/-- A dust buy before a healthy one does not hurt. -/
theorem dust_before_healthy_skipped :
    letI := referenceExternals []
    generateMatches 7 0 [69, 77, 77, 47, 75, 65, 89]
        [bookOrder 1 1 52 5 1, bookOrder 2 1 50 100 2] [bookOrder 3 0 48 100 3] 10
      = generateMatches 7 0 [69, 77, 77, 47, 75, 65, 89]
          (healthyOrders 10 [bookOrder 1 1 52 5 1, bookOrder 2 1 50 100 2])
          (healthyOrders 10 [bookOrder 3 0 48 100 3]) 10 := by
  let _ := referenceExternals []
  exact (generateMatches_withoutDust 7 0 _ (by decide) (by decide)).1 (by decide +kernel)

/-- NFT 1 has a healthy buy, a healthy sell of NFT 3 to trade with, and a sell of its own
in between.  The only other counterparty of that sell is the dust of NFT 2; yet it makes
the loop give up the buy.  Without the dust the buy and the sell of NFT 3 match. -/
theorem dust_costs_a_match :
    letI := referenceExternals []
    let buys := [bookOrder 1 1 10 10 1, bookOrder 2 1 9 1 2]
    let sells := [bookOrder 1 0 5 10 3, bookOrder 3 0 6 10 4]
    PricesDescend buys ∧ PricesAscend sells ∧
      generateMatches 7 0 [69, 77, 77, 47, 75, 65, 89] buys sells 5 = [] ∧
      generateMatches 7 0 [69, 77, 77, 47, 75, 65, 89] buys sells 5
        ≠ generateMatches 7 0 [69, 77, 77, 47, 75, 65, 89] (healthyOrders 5 buys)
            (healthyOrders 5 sells) 5 := by
  decide +kernel
