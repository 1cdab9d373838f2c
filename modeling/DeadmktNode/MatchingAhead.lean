/-
# The orders ahead of the matching cursor

What the matching loop emits from a cursor on depends only on the orders that lie ahead
of it and on what is left of the first ones.  `walk` is the loop as a machine on the two
queues of these orders, and the loop of the code refines it
(`loop_outputs_eq_walk`): index arithmetic ends here.

Read like this, skipping one side of a self-trade never strands a market: as long as a
buy and a sell of two NFTs that cross are ahead, such a pair is still ahead after every
skip (`generateMatches_ne_nil_iff`).
-/
import DeadmktNode.MatchingOrder
import DeadmktNode.MatchingSound

/-! ## Queues -/

/-- The orders of one side that lie ahead, with what is left of the first one. -/
structure OrderQueue where
  orders : List RevealedOrder
  remaining : UInt64

namespace OrderQueue

/-- A queue of which nothing is filled yet. -/
def full (orders : List RevealedOrder) : OrderQueue := ⟨orders, quantityAt orders 0⟩

/-- Move on to the next order. -/
def next (q : OrderQueue) : OrderQueue := full q.orders.tail

/-- Take a fill off the first order and move past it if it is exhausted. -/
def take (q : OrderQueue) (fillQty : UInt64) : OrderQueue :=
  if q.remaining - fillQty = 0 then q.next else ⟨q.orders, q.remaining - fillQty⟩

theorem full_cons (o : RevealedOrder) (orders : List RevealedOrder) :
    full (o :: orders) = ⟨o :: orders, o.order.quantity⟩ := rfl

theorem next_cons (o : RevealedOrder) (orders : List RevealedOrder) (r : UInt64) :
    (OrderQueue.mk (o :: orders) r).next = full orders := rfl

end OrderQueue

/-- The orders of both sides that lie ahead. -/
structure OpenOrders where
  buys : OrderQueue
  sells : OrderQueue

namespace OpenOrders

/-- Nothing of either side is filled yet. -/
def full (buys sells : List RevealedOrder) : OpenOrders :=
  ⟨OrderQueue.full buys, OrderQueue.full sells⟩

/-- Move past the first buy. -/
def nextBuy (o : OpenOrders) : OpenOrders := { o with buys := o.buys.next }

/-- Move past the first sell. -/
def nextSell (o : OpenOrders) : OpenOrders := { o with sells := o.sells.next }

/-- Fill the first orders of both sides. -/
def fill (o : OpenOrders) (fillQty : UInt64) : OpenOrders :=
  ⟨o.buys.take fillQty, o.sells.take fillQty⟩

/-- The number of orders ahead. -/
def size (o : OpenOrders) : ℕ := o.buys.orders.length + o.sells.orders.length

end OpenOrders

/-- Does a buy have a crossing sell of another NFT among `sells`? -/
def crossesSell (sells : List RevealedOrder) (buy : RevealedOrder) : Bool :=
  sells.any fun s => s.order.price ≤ buy.order.price && buy.order.nftId != s.order.nftId

/-- Does a sell have a crossing buy of another NFT among `buys`? -/
def crossesBuy (buys : List RevealedOrder) (sell : RevealedOrder) : Bool :=
  buys.any fun b => sell.order.price ≤ b.order.price && b.order.nftId != sell.order.nftId

namespace Book

variable [Externals] (B : Book)

/-! ## The loop on queues -/

/-- One iteration of the matching loop on the orders ahead. -/
def walkStep (o : OpenOrders) : Option (OpenOrders × Option Match) :=
  match o.buys.orders, o.sells.orders with
  | buy :: _, sell :: _ =>
      if buy.order.price < sell.order.price then none
      else if buy.order.nftId = sell.order.nftId then
        if crossesSell o.sells.orders buy && !crossesBuy o.buys.orders sell then
          some (o.nextSell, none)
        else some (o.nextBuy, none)
      else
        let fillQty := min o.buys.remaining o.sells.remaining
        if fillQty < B.minQuantity then
          if o.buys.remaining ≤ o.sells.remaining then some (o.nextBuy, none)
          else some (o.nextSell, none)
        else some (o.fill fillQty, some (B.makeMatch buy sell fillQty))
  | _, _ => none

omit [Externals] in
/-- Moving past the first order leaves fewer orders ahead. -/
theorem size_next_lt {buy sell : RevealedOrder} {buys sells : List RevealedOrder}
    {o : OpenOrders} (hbuys : o.buys.orders = buy :: buys)
    (hsells : o.sells.orders = sell :: sells) :
    o.nextBuy.size < o.size ∧ o.nextSell.size < o.size := by
  unfold OpenOrders.size OpenOrders.nextBuy OpenOrders.nextSell OrderQueue.next OrderQueue.full
  dsimp only
  rw [hbuys, hsells]
  constructor
  · simp only [List.tail_cons, List.length_cons]; omega
  · simp only [List.tail_cons, List.length_cons]; omega

omit [Externals] in
/-- A fill leaves the orders of a side, or all but the first. -/
theorem length_take_le (q : OrderQueue) (fillQty : UInt64) :
    (q.take fillQty).orders.length ≤ q.orders.length ∧
      (q.remaining - fillQty = 0 → (q.take fillQty) = q.next) := by
  unfold OrderQueue.take
  constructor
  · split_ifs
    · rw [OrderQueue.next, OrderQueue.full, List.length_tail]; omega
    · exact le_refl _
  · intro h
    rw [if_pos h]

/-- Every iteration leaves fewer orders ahead. -/
theorem size_walkStep_lt {o o' : OpenOrders} {m : Option Match}
    (h : B.walkStep o = some (o', m)) : o'.size < o.size := by
  unfold walkStep at h
  split at h
  · rename_i buy buys sell sells hbuys hsells
    obtain ⟨hbuy, hsell⟩ := size_next_lt hbuys hsells
    dsimp only at h
    split_ifs at h <;> obtain ⟨rfl, -⟩ := Prod.mk.inj (Option.some.inj h)
    · exact hsell
    · exact hbuy
    · exact hbuy
    · exact hsell
    · -- the smaller remainder is exhausted
      obtain ⟨hb, hb'⟩ := length_take_le o.buys (min o.buys.remaining o.sells.remaining)
      obtain ⟨hs, hs'⟩ := length_take_le o.sells (min o.buys.remaining o.sells.remaining)
      rcases sub_min_eq_zero o.buys.remaining o.sells.remaining with hzero | hzero
      · refine lt_of_le_of_lt ?_ hbuy
        unfold OpenOrders.fill OpenOrders.nextBuy OpenOrders.size
        rw [hb' hzero]
        exact Nat.add_le_add_left hs _
      · refine lt_of_le_of_lt ?_ hsell
        unfold OpenOrders.fill OpenOrders.nextSell OpenOrders.size
        rw [hs' hzero]
        exact Nat.add_le_add_right hb _
  · simp at h

/-- The matching loop on the orders ahead. -/
def walk : WhileLoop OpenOrders Match where
  step := B.walkStep
  measure := OpenOrders.size
  decreases := B.size_walkStep_lt

theorem walk_step (o : OpenOrders) : B.walk.step o = B.walkStep o := rfl

/-! ## The loop of the code refines it -/

/-- The orders that lie ahead of a cursor. -/
def openAt (c : BookCursor) : OpenOrders where
  buys := ⟨B.buys.drop c.buyIdx, c.buyRemaining⟩
  sells := ⟨B.sells.drop c.sellIdx, c.sellRemaining⟩

omit [Externals] in
/-- The next order of a side, ahead of position `i`. -/
theorem next_drop (orders : List RevealedOrder) (i : ℕ) (r : UInt64) :
    (OrderQueue.mk (orders.drop i) r).next
      = ⟨orders.drop (i + 1), quantityAt orders (i + 1)⟩ := by
  unfold OrderQueue.next OrderQueue.full quantityAt
  rw [List.tail_drop, List.getElem?_drop, Nat.add_zero]

omit [Externals] in
theorem openAt_advanceBuy (c : BookCursor) : B.openAt (B.advanceBuy c) = (B.openAt c).nextBuy := by
  simp only [openAt, advanceBuy, OpenOrders.nextBuy, next_drop]

omit [Externals] in
theorem openAt_advanceSell (c : BookCursor) :
    B.openAt (B.advanceSell c) = (B.openAt c).nextSell := by
  simp only [openAt, advanceSell, OpenOrders.nextSell, next_drop]

omit [Externals] in
theorem openAt_consume (c : BookCursor) (fillQty : UInt64) :
    B.openAt (B.consume c fillQty) = (B.openAt c).fill fillQty := by
  unfold consume OpenOrders.fill OrderQueue.take
  simp only [openAt, next_drop]
  by_cases hb : c.buyRemaining - fillQty = 0
  · by_cases hs : c.sellRemaining - fillQty = 0
    · simp [advanceBuy, advanceSell, hb, hs]
    · simp [advanceBuy, hb, hs]
  · by_cases hs : c.sellRemaining - fillQty = 0
    · simp [advanceSell, hb, hs]
    · simp [hb, hs]

omit [Externals] in
/-- The orders at a cursor are the first ones ahead of it. -/
theorem openAt_of_getElem? {c : BookCursor} {buy sell : RevealedOrder}
    (hbuy : B.buys[c.buyIdx]? = some buy) (hsell : B.sells[c.sellIdx]? = some sell) :
    B.openAt c = ⟨⟨buy :: B.buys.drop (c.buyIdx + 1), c.buyRemaining⟩,
      ⟨sell :: B.sells.drop (c.sellIdx + 1), c.sellRemaining⟩⟩ := by
  obtain ⟨hb, rfl⟩ := List.getElem?_eq_some_iff.mp hbuy
  obtain ⟨hs, rfl⟩ := List.getElem?_eq_some_iff.mp hsell
  rw [openAt, List.drop_eq_getElem_cons hb, List.drop_eq_getElem_cons hs]

/-- An iteration at a cursor is one on the orders ahead of it. -/
theorem walkStep_openAt (c : BookCursor) :
    B.walkStep (B.openAt c) = (B.step c).map (fun p => (B.openAt p.1, p.2)) := by
  unfold step
  cases hbuy : B.buys[c.buyIdx]? with
  | none =>
      have h : B.buys.drop c.buyIdx = [] :=
        List.drop_eq_nil_of_le (List.getElem?_eq_none_iff.mp hbuy)
      simp [walkStep, openAt, h]
  | some buy =>
      cases hsell : B.sells[c.sellIdx]? with
      | none =>
          have h : B.sells.drop c.sellIdx = [] :=
            List.drop_eq_nil_of_le (List.getElem?_eq_none_iff.mp hsell)
          simp [walkStep, openAt, h]
      | some sell =>
          have ho := B.openAt_of_getElem? hbuy hsell
          obtain ⟨hbuys, hsells⟩ : B.buys.drop c.buyIdx = buy :: B.buys.drop (c.buyIdx + 1) ∧
              B.sells.drop c.sellIdx = sell :: B.sells.drop (c.sellIdx + 1) := by
            simpa [openAt] using ho
          dsimp only
          rw [apply_ite (Option.map _), apply_ite (Option.map _), apply_ite (Option.map _),
            apply_ite (Option.map _), apply_ite (Option.map _)]
          simp only [Option.map_some, Option.map_none, openAt_advanceBuy, openAt_advanceSell,
            openAt_consume]
          unfold buyHasAlt sellHasAlt
          rw [hbuys, hsells, ho]
          rfl

/-- The matching loop emits what the walk emits from the orders ahead of its cursor. -/
theorem loop_outputs_eq_walk (c : BookCursor) :
    B.loop.outputs c = B.walk.outputs (B.openAt c) :=
  B.loop.outputs_refines B.walk B.openAt B.walkStep_openAt c

/-! ### One equation for each branch -/

@[simp] theorem walk_nil_buys (r : UInt64) (sells : OrderQueue) :
    B.walk.outputs ⟨⟨[], r⟩, sells⟩ = [] :=
  B.walk.outputs_of_none rfl

@[simp] theorem walk_nil_sells (s : UInt64) (buys : OrderQueue) :
    B.walk.outputs ⟨buys, ⟨[], s⟩⟩ = [] := by
  apply B.walk.outputs_of_none
  rw [walk_step, walkStep]
  cases buys.orders <;> rfl

section

variable {buy sell : RevealedOrder} {buys sells : List RevealedOrder} {r s : UInt64}

/-- Orders that do not cross end the loop. -/
theorem walk_of_lt (h : buy.order.price < sell.order.price) :
    B.walk.outputs ⟨⟨buy :: buys, r⟩, ⟨sell :: sells, s⟩⟩ = [] := by
  apply B.walk.outputs_of_none
  simp only [walk_step, walkStep, if_pos h]

/-- A self-trade skips one side. -/
theorem walk_self (hcross : sell.order.price ≤ buy.order.price)
    (hnft : buy.order.nftId = sell.order.nftId) :
    B.walk.outputs ⟨⟨buy :: buys, r⟩, ⟨sell :: sells, s⟩⟩
      = if crossesSell (sell :: sells) buy && !crossesBuy (buy :: buys) sell then
          B.walk.outputs ⟨⟨buy :: buys, r⟩, .full sells⟩
        else B.walk.outputs ⟨.full buys, ⟨sell :: sells, s⟩⟩ := by
  have hstep : B.walk.step ⟨⟨buy :: buys, r⟩, ⟨sell :: sells, s⟩⟩
      = if crossesSell (sell :: sells) buy && !crossesBuy (buy :: buys) sell then
          some (⟨⟨buy :: buys, r⟩, .full sells⟩, none)
        else some (⟨.full buys, ⟨sell :: sells, s⟩⟩, none) := by
    simp only [walk_step, walkStep, if_neg (UInt64.not_lt.mpr hcross), if_pos hnft]
    rfl
  split_ifs at hstep ⊢
  · exact B.walk.outputs_of_some hstep
  · exact B.walk.outputs_of_some hstep

/-- A fill under the minimum skips the smaller side. -/
theorem walk_dust (hcross : sell.order.price ≤ buy.order.price)
    (hnft : buy.order.nftId ≠ sell.order.nftId) (hmin : min r s < B.minQuantity) :
    B.walk.outputs ⟨⟨buy :: buys, r⟩, ⟨sell :: sells, s⟩⟩
      = if r ≤ s then B.walk.outputs ⟨.full buys, ⟨sell :: sells, s⟩⟩
        else B.walk.outputs ⟨⟨buy :: buys, r⟩, .full sells⟩ := by
  have hstep : B.walk.step ⟨⟨buy :: buys, r⟩, ⟨sell :: sells, s⟩⟩
      = if r ≤ s then some (⟨.full buys, ⟨sell :: sells, s⟩⟩, none)
        else some (⟨⟨buy :: buys, r⟩, .full sells⟩, none) := by
    simp only [walk_step, walkStep, if_neg (UInt64.not_lt.mpr hcross), if_neg hnft, if_pos hmin]
    rfl
  split_ifs at hstep ⊢
  · exact B.walk.outputs_of_some hstep
  · exact B.walk.outputs_of_some hstep

/-- A fill that reaches the minimum is a match. -/
theorem walk_fill (hcross : sell.order.price ≤ buy.order.price)
    (hnft : buy.order.nftId ≠ sell.order.nftId) (hmin : B.minQuantity ≤ min r s) :
    B.walk.outputs ⟨⟨buy :: buys, r⟩, ⟨sell :: sells, s⟩⟩
      = B.makeMatch buy sell (min r s)
          :: B.walk.outputs ⟨OrderQueue.take ⟨buy :: buys, r⟩ (min r s),
              OrderQueue.take ⟨sell :: sells, s⟩ (min r s)⟩ := by
  refine B.walk.outputs_of_some (o := some (B.makeMatch buy sell (min r s))) ?_
  simp only [walk_step, walkStep, if_neg (UInt64.not_lt.mpr hcross), if_neg hnft,
    if_neg (UInt64.not_lt.mpr hmin)]
  rfl

end

end Book

/-! ## No stranded market -/

/-- The highest price comes first. -/
def PricesDescend (buys : List RevealedOrder) : Prop :=
  buys.Pairwise fun a b => b.order.price ≤ a.order.price

/-- The lowest price comes first. -/
def PricesAscend (sells : List RevealedOrder) : Prop :=
  sells.Pairwise fun a b => a.order.price ≤ b.order.price

instance (buys : List RevealedOrder) : Decidable (PricesDescend buys) :=
  inferInstanceAs (Decidable (buys.Pairwise _))

instance (sells : List RevealedOrder) : Decidable (PricesAscend sells) :=
  inferInstanceAs (Decidable (sells.Pairwise _))

/-- The comparator of the buys puts the highest price first. -/
theorem pricesDescend_sortOrders (buys sells : List RevealedOrder) :
    PricesDescend (sortOrders buys sells).1 := by
  refine (pairwise_sortBy compareBuys buys).imp ?_
  intro a b h
  rw [compareBuys, Ordering.isLE_then_iff_and] at h
  exact Std.isLE_compare.mp h.1

/-- The comparator of the sells puts the lowest price first. -/
theorem pricesAscend_sortOrders (buys sells : List RevealedOrder) :
    PricesAscend (sortOrders buys sells).2 := by
  refine (pairwise_sortBy compareSells sells).imp ?_
  intro a b h
  rw [compareSells, Ordering.isLE_then_iff_and] at h
  exact Std.isLE_compare.mp h.1

/-- A buy and a sell of two NFTs that cross. -/
def Tradable (buy sell : RevealedOrder) : Prop :=
  buy.order.nftId ≠ sell.order.nftId ∧ sell.order.price ≤ buy.order.price

theorem crossesSell_eq_true_iff {sells : List RevealedOrder} {buy : RevealedOrder} :
    crossesSell sells buy = true ↔ ∃ sell ∈ sells, Tradable buy sell := by
  unfold crossesSell Tradable
  simp [List.any_eq_true, and_comm]

theorem crossesBuy_eq_true_iff {buys : List RevealedOrder} {sell : RevealedOrder} :
    crossesBuy buys sell = true ↔ ∃ buy ∈ buys, Tradable buy sell := by
  unfold crossesBuy Tradable
  simp [List.any_eq_true, and_comm]

/-- In sorted books a crossing pair anywhere means that the first orders cross. -/
theorem head_crosses {buy sell b t : RevealedOrder} {buys sells : List RevealedOrder}
    (hbuys : PricesDescend (buy :: buys)) (hsells : PricesAscend (sell :: sells))
    (hb : b ∈ buy :: buys) (ht : t ∈ sell :: sells) (h : t.order.price ≤ b.order.price) :
    sell.order.price ≤ buy.order.price := by
  have hhigh : b.order.price ≤ buy.order.price := by
    rcases List.mem_cons.mp hb with rfl | hb
    · exact UInt64.le_refl _
    · exact List.rel_of_pairwise_cons hbuys hb
  have hlow : sell.order.price ≤ t.order.price := by
    rcases List.mem_cons.mp ht with rfl | ht
    · exact UInt64.le_refl _
    · exact List.rel_of_pairwise_cons hsells ht
  exact UInt64.le_trans hlow (UInt64.le_trans h hhigh)

theorem min_of_le {r s : UInt64} (h : r ≤ s) : min r s = r := if_pos h

theorem min_of_not_le {r s : UInt64} (h : ¬ r ≤ s) : min r s = s := if_neg h

/-- The fill exceeds neither remainder. -/
theorem fill_le (r s : UInt64) : min r s ≤ r ∧ min r s ≤ s := by
  by_cases h : r ≤ s
  · rw [min_of_le h]
    exact ⟨UInt64.le_refl _, h⟩
  · rw [min_of_not_le h]
    exact ⟨UInt64.le_of_lt (UInt64.not_le.mp h), UInt64.le_refl _⟩

/-- What both remainders reach, the fill reaches. -/
theorem le_min_of_le {a r s : UInt64} (hr : a ≤ r) (hs : a ≤ s) : a ≤ min r s := by
  show a ≤ if r ≤ s then r else s
  split_ifs
  · exact hr
  · exact hs

/-- As long as nothing is filled and a tradable pair is ahead, the walk reaches a match.
A skip keeps such a pair ahead, though perhaps another one. -/
theorem Book.walk_full_ne_nil [Externals] (B : Book) {buys sells : List RevealedOrder}
    (hbuys : PricesDescend buys) (hsells : PricesAscend sells)
    (hbmin : ∀ b ∈ buys, B.minQuantity ≤ b.order.quantity)
    (hsmin : ∀ t ∈ sells, B.minQuantity ≤ t.order.quantity)
    (h : ∃ b ∈ buys, ∃ t ∈ sells, Tradable b t) :
    B.walk.outputs (OpenOrders.full buys sells) ≠ [] := by
  induction hn : buys.length + sells.length using Nat.strong_induction_on
    generalizing buys sells with
  | _ n ih =>
      obtain ⟨b, hb, t, ht, htrade⟩ := h
      cases buys with
      | nil => simp at hb
      | cons buy buys =>
          cases sells with
          | nil => simp at ht
          | cons sell sells =>
              have hcross := head_crosses hbuys hsells hb ht htrade.2
              rw [OpenOrders.full, OrderQueue.full_cons, OrderQueue.full_cons]
              by_cases hnft : buy.order.nftId = sell.order.nftId
              · rw [B.walk_self hcross hnft]
                split_ifs with hskip
                · -- the buy keeps a sell of another NFT, which is not the first one
                  rw [Bool.and_eq_true, crossesSell_eq_true_iff] at hskip
                  obtain ⟨⟨t', ht', htrade'⟩, -⟩ := hskip
                  refine ih _ ?_ hbuys hsells.of_cons hbmin
                    (fun x hx => hsmin x (List.mem_cons_of_mem _ hx)) ?_ rfl
                  · rw [← hn]; simp
                  · rcases List.mem_cons.mp ht' with rfl | ht'
                    · exact absurd hnft htrade'.1
                    · exact ⟨buy, List.mem_cons_self, t', ht', htrade'⟩
                · refine ih _ ?_ hbuys.of_cons hsells
                    (fun x hx => hbmin x (List.mem_cons_of_mem _ hx)) hsmin ?_ rfl
                  · rw [← hn]; simp
                  rw [Bool.and_eq_true, Bool.not_eq_true', not_and_or, Bool.not_eq_false] at hskip
                  rcases hskip with hbuy | hsell
                  · -- the buy has no sell of another NFT: the pair is not its own
                    rw [crossesSell_eq_true_iff] at hbuy
                    rcases List.mem_cons.mp hb with rfl | hb
                    · exact absurd ⟨t, ht, htrade⟩ hbuy
                    · exact ⟨b, hb, t, ht, htrade⟩
                  · -- the sell keeps a buy of another NFT, which is not the first one
                    obtain ⟨b', hb', htrade'⟩ := crossesBuy_eq_true_iff.mp hsell
                    rcases List.mem_cons.mp hb' with rfl | hb'
                    · exact absurd hnft htrade'.1
                    · exact ⟨b', hb', sell, List.mem_cons_self, htrade'⟩
              -- two owners: the first pair is filled
              · have hfill : B.minQuantity ≤ min buy.order.quantity sell.order.quantity :=
                  le_min_of_le (hbmin buy List.mem_cons_self) (hsmin sell List.mem_cons_self)
                rw [B.walk_fill hcross hnft hfill]
                exact List.cons_ne_nil _ _

section

variable [Externals] (batchId poolId : UInt64) (symbol : Bytes)
  (buys sells : List RevealedOrder) (minQuantity : UInt64)

/-- Matching is the walk over the two books. -/
theorem generateMatches_eq_walk :
    generateMatches batchId poolId symbol buys sells minQuantity
      = (Book.mk batchId poolId symbol buys sells minQuantity).walk.outputs
          (OpenOrders.full buys sells) := by
  rw [generateMatches_eq_loop, Book.loop_outputs_eq_walk]
  rfl

variable {buys sells minQuantity}

/-- In sorted books of orders that reach the minimum, the matches are empty only if no pair
is tradable. -/
theorem generateMatches_eq_nil_iff (hbuys : PricesDescend buys) (hsells : PricesAscend sells)
    (hbmin : ∀ b ∈ buys, minQuantity ≤ b.order.quantity)
    (hsmin : ∀ t ∈ sells, minQuantity ≤ t.order.quantity) :
    generateMatches batchId poolId symbol buys sells minQuantity = [] ↔
      ¬ ∃ buy ∈ buys, ∃ sell ∈ sells, Tradable buy sell := by
  constructor
  · intro hnil htrade
    rw [generateMatches_eq_walk] at hnil
    exact Book.walk_full_ne_nil _ hbuys hsells hbmin hsmin htrade hnil
  · intro htrade
    by_contra hne
    obtain ⟨placed, heq, hplaced, -, -⟩ :=
      generateMatches_sound batchId poolId symbol buys sells minQuantity
    rw [heq] at hne
    obtain ⟨p, hp⟩ := List.exists_mem_of_ne_nil placed (by rintro rfl; exact hne rfl)
    obtain ⟨hbuy, hsell, hnft, hcross, -⟩ := hplaced p hp
    exact htrade ⟨_, List.mem_of_getElem? hbuy, _, List.mem_of_getElem? hsell, hnft, hcross⟩

/-- **No stranded market.**  In price-sorted books whose orders all reach the minimum,
matching finds a match exactly when some buy and some sell of two NFTs cross, however the
orders are spread over the NFTs.  No bound on the minimum itself is needed. -/
theorem generateMatches_ne_nil_iff (hbuys : PricesDescend buys) (hsells : PricesAscend sells)
    (hquantity : ∀ o ∈ buys ++ sells, minQuantity ≤ o.order.quantity) :
    generateMatches batchId poolId symbol buys sells minQuantity ≠ [] ↔
      ∃ buy ∈ buys, ∃ sell ∈ sells, buy.order.nftId ≠ sell.order.nftId ∧
        sell.order.price ≤ buy.order.price := by
  have hbmin : ∀ b ∈ buys, minQuantity ≤ b.order.quantity :=
    fun b hb => hquantity b (List.mem_append_left _ hb)
  have hsmin : ∀ t ∈ sells, minQuantity ≤ t.order.quantity :=
    fun t ht => hquantity t (List.mem_append_right _ ht)
  rw [Ne, generateMatches_eq_nil_iff batchId poolId symbol hbuys hsells hbmin hsmin, not_not]
  rfl

end

/-- An order of the market `EMM/KAY` in batch 7, told apart from its like by its nonce. -/
def bookOrder [Externals] (nftId : UInt64) (side : UInt8) (price quantity : UInt64)
    (nonce : UInt8) : RevealedOrder :=
  let order : Order := ⟨nftId, [69, 77, 77, 47, 75, 65, 89], side, price, quantity, 7, [nonce]⟩
  ⟨order, [], orderHash order⟩

/-- Two buys and two sells of NFT 1 lie before the sell of NFT 2: the market is not
stranded. -/
theorem run_of_one_nft_matches :
    letI := referenceExternals []
    generateMatches 7 0 [69, 77, 77, 47, 75, 65, 89]
      [bookOrder 1 1 10 5 1, bookOrder 1 1 9 5 2]
      [bookOrder 1 0 5 5 3, bookOrder 1 0 6 5 4, bookOrder 2 0 7 5 5] 1 ≠ [] := by
  let _ := referenceExternals []
  exact (generateMatches_ne_nil_iff 7 0 _ (by decide) (by decide) (by decide)).mpr
    ⟨bookOrder 1 1 10 5 1, by simp, bookOrder 2 0 7 5 5, by simp, by decide, by decide⟩

section

variable [Externals] (batchId poolId : UInt64) (symbol : Bytes) {minQuantity : UInt64}

/-- The sorts of the entry point make the books price-sorted: a symbol whose reveals all
reach the minimum has a match exactly when a buy and a sell of two NFTs cross. -/
theorem matchSymbol_ne_nil_iff {reveals : List RevealedOrder}
    (hquantity : ∀ r ∈ reveals, minQuantity ≤ r.order.quantity) :
    matchSymbol batchId poolId symbol reveals minQuantity ≠ [] ↔
      ∃ buy ∈ reveals, ∃ sell ∈ reveals,
        buy.order.side = 1 ∧ sell.order.side = 0 ∧ Tradable buy sell := by
  have hbuys := pricesDescend_sortOrders (reveals.filter fun r => r.order.side = 1)
    (reveals.filter fun r => r.order.side = 0)
  have hsells := pricesAscend_sortOrders (reveals.filter fun r => r.order.side = 1)
    (reveals.filter fun r => r.order.side = 0)
  have hmem : ∀ (side : UInt8) (cmp : RevealedOrder → RevealedOrder → Ordering) (r : RevealedOrder),
      r ∈ sortBy cmp (reveals.filter fun r => r.order.side = side) ↔
        r ∈ reveals ∧ r.order.side = side := by
    intro side cmp r
    rw [mem_sortBy, List.mem_filter, decide_eq_true_eq]
  unfold matchSymbol
  rw [Ne, generateMatches_eq_nil_iff batchId poolId symbol hbuys hsells, not_not]
  · simp only [sortOrders, hmem]
    constructor
    · rintro ⟨buy, ⟨hbuy, hone⟩, sell, ⟨hsell, hzero⟩, htrade⟩
      exact ⟨buy, hbuy, sell, hsell, hone, hzero, htrade⟩
    · rintro ⟨buy, hbuy, sell, hsell, hone, hzero, htrade⟩
      exact ⟨buy, ⟨hbuy, hone⟩, sell, ⟨hsell, hzero⟩, htrade⟩
  · exact fun b hb => hquantity b ((hmem 1 compareBuys b).mp hb).1
  · exact fun t ht => hquantity t ((hmem 0 compareSells t).mp ht).1

end
