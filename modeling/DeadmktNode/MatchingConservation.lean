/-
# Quantity conservation in the matching engine

The bound of `MatchingSound` is per book position.  When the reveals of a batch have
pairwise distinct hashes, an order stands at one position of one book, so that the
bound holds per order: the matches in which an order takes part, found by its hash, fill
at most its quantity (`filledOf_runMatching_le`).
-/
import DeadmktNode.MatchingSound
import DeadmktNode.MatchingOrder

open List

/-! ## Fills of an order -/

/-- Does an order take part in a match? -/
def Match.involves (m : Match) (hash : Hash32) : Prop :=
  m.buyer.orderHash = hash ∨ m.seller.orderHash = hash

instance (m : Match) (hash : Hash32) : Decidable (m.involves hash) :=
  inferInstanceAs (Decidable (_ ∨ _))

/-- The fills of all matches in which the order with this hash takes part. -/
def filledOf (hash : Hash32) (ms : List Match) : ℕ :=
  (ms.map fun m => if m.involves hash then m.fillQuantity.toNat else 0).sum

@[simp] theorem filledOf_nil (hash : Hash32) : filledOf hash [] = 0 := rfl

theorem filledOf_append (hash : Hash32) (ms ms' : List Match) :
    filledOf hash (ms ++ ms') = filledOf hash ms + filledOf hash ms' := by
  unfold filledOf
  rw [List.map_append, List.sum_append]

/-- An order that takes part in no match is not filled. -/
theorem filledOf_eq_zero {hash : Hash32} {ms : List Match}
    (h : ∀ m ∈ ms, ¬ m.involves hash) : filledOf hash ms = 0 := by
  unfold filledOf
  refine List.sum_eq_zero ?_
  intro x hx
  obtain ⟨m, hm, rfl⟩ := List.mem_map.mp hx
  exact if_neg (h m hm)

/-- Fills over groups of matches add up. -/
theorem filledOf_flatMap {α : Type*} (hash : Hash32) (l : List α) (f : α → List Match) :
    filledOf hash (l.flatMap f) = (l.map fun a => filledOf hash (f a)).sum := by
  induction l with
  | nil => rfl
  | cons a l ih => rw [List.flatMap_cons, filledOf_append, ih, List.map_cons, List.sum_cons]

/-- A sum over distinct elements of which only one contributes. -/
theorem sum_map_le_of_eq_zero_of_ne {α : Type*} {l : List α} (hl : l.Nodup) {f : α → ℕ}
    {a : α} {bound : ℕ} (ha : f a ≤ bound) (hne : ∀ b, b ≠ a → f b = 0) :
    (l.map f).sum ≤ bound := by
  induction l with
  | nil => simp
  | cons b l ih =>
      rw [List.nodup_cons] at hl
      rw [List.map_cons, List.sum_cons]
      by_cases h : b = a
      · subst h
        have hzero : (l.map f).sum = 0 := by
          refine List.sum_eq_zero ?_
          intro x hx
          obtain ⟨c, hc, rfl⟩ := List.mem_map.mp hx
          refine hne c ?_
          rintro rfl
          exact hl.1 hc
        omega
      · rw [hne b h, Nat.zero_add]
        exact ih hl.2

/-! ## One symbol -/

/-- Positions of equal hashes in a list of distinct hashes are equal. -/
theorem idx_eq_of_orderHash_eq {l : List RevealedOrder}
    (hl : (l.map RevealedOrder.orderHash).Nodup) {i j : ℕ} {a b : RevealedOrder}
    (ha : l[i]? = some a) (hb : l[j]? = some b) (hab : a.orderHash = b.orderHash) : i = j := by
  have hi : i < (l.map RevealedOrder.orderHash).length := by
    rw [List.length_map]
    exact (List.getElem?_eq_some_iff.mp ha).1
  refine (List.getElem?_inj hi hl).mp ?_
  rw [List.getElem?_map, List.getElem?_map, ha, hb, Option.map_some, Option.map_some, hab]

section

variable [Externals] (batchId poolId : UInt64) (symbol : Bytes)
  {buys sells : List RevealedOrder} (minQuantity : UInt64)

/-- The two orders of a match stand in the books. -/
theorem mem_of_mem_generateMatches {m : Match}
    (h : m ∈ generateMatches batchId poolId symbol buys sells minQuantity) :
    m.buyer ∈ buys ∧ m.seller ∈ sells := by
  rw [generateMatches_eq_map_placed] at h
  obtain ⟨p, hp, rfl⟩ := List.mem_map.mp h
  have hw := placedMatches_wellPlaced _ _ _ _ _ _ p hp
  exact ⟨List.mem_of_getElem? hw.buyer, List.mem_of_getElem? hw.seller⟩

/-- A match fills at most the quantity of each of its orders. -/
theorem fillQuantity_le_of_mem_generateMatches {m : Match}
    (h : m ∈ generateMatches batchId poolId symbol buys sells minQuantity) :
    m.fillQuantity ≤ m.buyer.order.quantity ∧ m.fillQuantity ≤ m.seller.order.quantity := by
  rw [generateMatches_eq_map_placed] at h
  obtain ⟨p, hp, rfl⟩ := List.mem_map.mp h
  have hw := placedMatches_wellPlaced _ _ _ _ _ _ p hp
  have hbuy := sum_buyFill_le batchId poolId symbol buys sells minQuantity p.buyIdx
  have hsell := sum_sellFill_le batchId poolId symbol buys sells minQuantity p.sellIdx
  -- one fill at a position is at most the sum of the fills there
  have hbuy' := List.le_sum_of_mem (List.mem_map_of_mem (f := PlacedMatch.buyFill p.buyIdx) hp)
  have hsell' :=
    List.le_sum_of_mem (List.mem_map_of_mem (f := PlacedMatch.sellFill p.sellIdx) hp)
  rw [quantityAt, hw.buyer, Option.map_some, Option.getD_some] at hbuy
  rw [quantityAt, hw.seller, Option.map_some, Option.getD_some] at hsell
  rw [PlacedMatch.buyFill, if_pos rfl] at hbuy'
  rw [PlacedMatch.sellFill, if_pos rfl] at hsell'
  exact ⟨UInt64.le_iff_toNat_le.mpr (hbuy'.trans hbuy),
    UInt64.le_iff_toNat_le.mpr (hsell'.trans hsell)⟩

/-- A match carries the batch, the pool and the symbol of its book. -/
theorem context_of_mem_generateMatches {m : Match}
    (h : m ∈ generateMatches batchId poolId symbol buys sells minQuantity) :
    m.batchId = batchId ∧ m.poolId = poolId ∧ m.symbol = symbol := by
  rw [generateMatches_eq_map_placed] at h
  obtain ⟨p, hp, rfl⟩ := List.mem_map.mp h
  rw [(placedMatches_wellPlaced _ _ _ _ _ _ p hp).made]
  exact ⟨rfl, rfl, rfl⟩

/-- A buy is filled at most to its quantity. -/
theorem filledOf_buy_le (hnodup : ((buys ++ sells).map RevealedOrder.orderHash).Nodup)
    {r : RevealedOrder} (hr : r ∈ buys) :
    filledOf r.orderHash (generateMatches batchId poolId symbol buys sells minQuantity)
      ≤ r.order.quantity.toNat := by
  rw [List.map_append, List.nodup_append] at hnodup
  obtain ⟨hbuys, -, hdisj⟩ := hnodup
  obtain ⟨i, hi⟩ := List.getElem?_of_mem hr
  have hq : quantityAt buys i = r.order.quantity := by simp [quantityAt, hi]
  rw [generateMatches_eq_map_placed, filledOf, List.map_map, ← hq]
  refine le_trans ?_ (sum_buyFill_le batchId poolId symbol buys sells minQuantity i)
  refine List.sum_le_sum ?_
  intro p hp
  have hw := placedMatches_wellPlaced _ _ _ _ _ _ p hp
  have hpos : p.trade.involves r.orderHash → p.buyIdx = i := by
    rintro (h | h)
    · exact idx_eq_of_orderHash_eq hbuys hw.buyer hi h
    · exact absurd h.symm (hdisj _ (List.mem_map_of_mem hr) _
        (List.mem_map_of_mem (List.mem_of_getElem? hw.seller)))
  simp only [Function.comp_apply, PlacedMatch.buyFill]
  split_ifs with h h'
  · exact le_refl _
  · exact absurd (hpos h) h'
  · exact Nat.zero_le _
  · exact Nat.zero_le _

/-- A sell is filled at most to its quantity. -/
theorem filledOf_sell_le (hnodup : ((buys ++ sells).map RevealedOrder.orderHash).Nodup)
    {r : RevealedOrder} (hr : r ∈ sells) :
    filledOf r.orderHash (generateMatches batchId poolId symbol buys sells minQuantity)
      ≤ r.order.quantity.toNat := by
  rw [List.map_append, List.nodup_append] at hnodup
  obtain ⟨-, hsells, hdisj⟩ := hnodup
  obtain ⟨i, hi⟩ := List.getElem?_of_mem hr
  have hq : quantityAt sells i = r.order.quantity := by simp [quantityAt, hi]
  rw [generateMatches_eq_map_placed, filledOf, List.map_map, ← hq]
  refine le_trans ?_ (sum_sellFill_le batchId poolId symbol buys sells minQuantity i)
  refine List.sum_le_sum ?_
  intro p hp
  have hw := placedMatches_wellPlaced _ _ _ _ _ _ p hp
  have hpos : p.trade.involves r.orderHash → p.sellIdx = i := by
    rintro (h | h)
    · exact absurd h (hdisj _ (List.mem_map_of_mem (List.mem_of_getElem? hw.buyer)) _
        (List.mem_map_of_mem hr))
    · exact idx_eq_of_orderHash_eq hsells hw.seller hi h
  simp only [Function.comp_apply, PlacedMatch.sellFill]
  split_ifs with h h'
  · exact le_refl _
  · exact absurd (hpos h) h'
  · exact Nat.zero_le _
  · exact Nat.zero_le _

end

/-- The two orders of a match of a symbol were revealed, on their sides. -/
theorem mem_of_mem_matchSymbol [Externals] {batchId poolId : UInt64} {symbol : Bytes}
    {reveals : List RevealedOrder} {minQuantity : UInt64} {m : Match}
    (h : m ∈ matchSymbol batchId poolId symbol reveals minQuantity) :
    (m.buyer ∈ reveals ∧ m.buyer.order.side = 1) ∧
      (m.seller ∈ reveals ∧ m.seller.order.side = 0) := by
  obtain ⟨hbuyer, hseller⟩ := mem_of_mem_generateMatches _ _ _ _ h
  rw [sortOrders, mem_sortBy, List.mem_filter, decide_eq_true_eq] at hbuyer hseller
  exact ⟨hbuyer, hseller⟩

/-- An order is filled at most to its quantity in the matches of a symbol. -/
theorem filledOf_matchSymbol_le [Externals] (batchId poolId : UInt64) (symbol : Bytes)
    {reveals : List RevealedOrder} (minQuantity : UInt64)
    (hnodup : (reveals.map RevealedOrder.orderHash).Nodup) {r : RevealedOrder}
    (hr : r ∈ reveals) :
    filledOf r.orderHash (matchSymbol batchId poolId symbol reveals minQuantity)
      ≤ r.order.quantity.toNat := by
  have hinj := eq_of_nodup_orderHash hnodup
  -- the two books together are a part of the reveals
  have hbooks : (((sortOrders (reveals.filter (fun r => r.order.side = 1))
      (reveals.filter (fun r => r.order.side = 0))).1 ++
      (sortOrders (reveals.filter (fun r => r.order.side = 1))
        (reveals.filter (fun r => r.order.side = 0))).2).map RevealedOrder.orderHash).Nodup := by
    have hperm := ((sortBy_perm compareBuys (reveals.filter (fun r => r.order.side = 1))).append
      (sortBy_perm compareSells (reveals.filter (fun r => r.order.side = 0)))).map
        RevealedOrder.orderHash
    refine hperm.nodup_iff.mpr ?_
    rw [List.map_append, List.nodup_append]
    refine ⟨hnodup.sublist (List.filter_sublist.map _),
      hnodup.sublist (List.filter_sublist.map _), ?_⟩
    rintro x hx y hy rfl
    obtain ⟨a, ha, hax⟩ := List.mem_map.mp hx
    obtain ⟨b, hb, hbx⟩ := List.mem_map.mp hy
    rw [List.mem_filter, decide_eq_true_eq] at ha hb
    obtain rfl := hinj a ha.1 b hb.1 (hax.trans hbx.symm)
    rw [ha.2] at hb
    exact absurd hb.2 (by decide)
  by_cases hbuy : r.order.side = 1
  · refine filledOf_buy_le _ _ _ _ hbooks ?_
    rw [sortOrders, mem_sortBy, List.mem_filter, decide_eq_true_eq]
    exact ⟨hr, hbuy⟩
  by_cases hsell : r.order.side = 0
  · refine filledOf_sell_le _ _ _ _ hbooks ?_
    rw [sortOrders, mem_sortBy, List.mem_filter, decide_eq_true_eq]
    exact ⟨hr, hsell⟩
  · rw [filledOf_eq_zero]
    · exact Nat.zero_le _
    · intro m hm
      obtain ⟨⟨hb, hb1⟩, hs, hs0⟩ := mem_of_mem_matchSymbol hm
      rintro (h | h)
      · rw [hinj m.buyer hb r hr h] at hb1
        exact hbuy hb1
      · rw [hinj m.seller hs r hr h] at hs0
        exact hsell hs0

/-! ## All symbols -/

/-- The matches of a batch come from the reveals of one symbol each. -/
theorem mem_runMatching [Externals] {input : MatchingInput} {m : Match}
    (h : m ∈ runMatching input) :
    ∃ symbol minQuantity, m ∈ matchSymbol input.batchId input.poolId symbol
      (input.reveals.filter (fun r => r.order.symbol = symbol)) minQuantity := by
  unfold runMatching at h
  dsimp only at h
  rw [List.mem_flatMap] at h
  obtain ⟨symbol, -, h⟩ := h
  rw [lookup_bySymbol] at h
  cases hmq : (marketMap input.markets).lookup symbol with
  | none => rw [hmq] at h; simp at h
  | some minQuantity =>
      rw [hmq] at h
      exact ⟨symbol, minQuantity, h⟩

/-- The two sides of a match belong to different NFTs, and one of them pays the gas. -/
theorem parties_of_mem_runMatching [Externals] {input : MatchingInput} {m : Match}
    (h : m ∈ runMatching input) :
    m.buyer.order.nftId ≠ m.seller.order.nftId ∧
      (m.gasPayerNftId = m.buyer.order.nftId ∨ m.gasPayerNftId = m.seller.order.nftId) := by
  obtain ⟨symbol, minQuantity, h⟩ := mem_runMatching h
  rw [matchSymbol, generateMatches_eq_map_placed] at h
  obtain ⟨p, hp, rfl⟩ := List.mem_map.mp h
  have hw := placedMatches_wellPlaced _ _ _ _ _ _ p hp
  refine ⟨hw.nft_ne, ?_⟩
  rw [hw.made]
  dsimp only [Book.makeMatch, determineGasPayer]
  split_ifs
  · exact .inl rfl
  · exact .inr rfl

/-- The two orders of a match were revealed under its symbol, on their sides, and are filled
at most to their quantities. -/
theorem terms_of_mem_runMatching [Externals] {input : MatchingInput} {m : Match}
    (h : m ∈ runMatching input) :
    (m.buyer ∈ input.reveals ∧ m.buyer.order.symbol = m.symbol ∧ m.buyer.order.side = 1 ∧
        m.fillQuantity ≤ m.buyer.order.quantity) ∧
      (m.seller ∈ input.reveals ∧ m.seller.order.symbol = m.symbol ∧ m.seller.order.side = 0 ∧
        m.fillQuantity ≤ m.seller.order.quantity) := by
  obtain ⟨symbol, minQuantity, h⟩ := mem_runMatching h
  obtain ⟨⟨hbuyer, hbuy⟩, hseller, hsell⟩ := mem_of_mem_matchSymbol h
  obtain ⟨-, -, rfl⟩ := context_of_mem_generateMatches _ _ _ _ h
  obtain ⟨hbuyQty, hsellQty⟩ := fillQuantity_le_of_mem_generateMatches _ _ _ _ h
  rw [List.mem_filter, decide_eq_true_eq] at hbuyer hseller
  exact ⟨⟨hbuyer.1, hbuyer.2, hbuy, hbuyQty⟩, hseller.1, hseller.2, hsell, hsellQty⟩

/-- **Quantity conservation.**  For reveals with pairwise distinct hashes, the matches
in which an order takes part fill at most its quantity. -/
theorem filledOf_runMatching_le [Externals] (input : MatchingInput)
    (hnodup : (input.reveals.map RevealedOrder.orderHash).Nodup) {r : RevealedOrder}
    (hr : r ∈ input.reveals) :
    filledOf r.orderHash (runMatching input) ≤ r.order.quantity.toNat := by
  have hinj := eq_of_nodup_orderHash hnodup
  have hgroup : ∀ s : Bytes, ((input.reveals.filter (fun r => r.order.symbol = s)).map
      RevealedOrder.orderHash).Nodup :=
    fun s => hnodup.sublist (List.filter_sublist.map _)
  unfold runMatching
  dsimp only
  rw [filledOf_flatMap]
  refine sum_map_le_of_eq_zero_of_ne (a := r.order.symbol)
    ((sortBy_perm compare _).nodup_iff.mpr (AList.keys_nodup _)) ?_ ?_
  -- the fills of an order are those of its own market
  · rw [lookup_bySymbol]
    cases (marketMap input.markets).lookup r.order.symbol with
    | none => exact Nat.zero_le _
    | some q =>
        refine filledOf_matchSymbol_le _ _ _ q (hgroup _) ?_
        rw [List.mem_filter, decide_eq_true_eq]
        exact ⟨hr, rfl⟩
  -- in another market no party has its hash
  · intro s hs
    rw [lookup_bySymbol]
    cases (marketMap input.markets).lookup s with
    | none => rfl
    | some q =>
        refine filledOf_eq_zero ?_
        intro m hm
        obtain ⟨⟨hb, -⟩, hsell, -⟩ := mem_of_mem_matchSymbol hm
        rw [List.mem_filter, decide_eq_true_eq] at hb hsell
        rintro (h | h)
        · exact hs (hinj m.buyer hb.1 r hr h ▸ hb.2).symm
        · exact hs (hinj m.seller hsell.1 r hr h ▸ hsell.2).symm
