/-
# Matching does not depend on the order of its input

The reveals and the markets reach `runMatching` in whatever order a node collected
them, or in the iteration order of a hash map.  The grouping by symbol and the two
sorts remove that order: permuted inputs give the same list of matches
(`runMatching_perm`), and so do two batch states with the same sets of reveals and of
markets (`runMatching_order_independent`).
-/
import DeadmktNode.Matching
import DeadmktNode.BatchState

open List

/-! ## The comparators are total orders on distinct hashes -/

/-- The order by descending price and ascending hash. -/
theorem compareBuys_eq_compareLex :
    compareBuys = compareLex
      (fun a b => compareOn (fun r : RevealedOrder => r.order.price) b a)
      (compareOn RevealedOrder.orderHash) := rfl

/-- The order by ascending price and ascending hash. -/
theorem compareSells_eq_compareLex :
    compareSells = compareLex (compareOn (fun r : RevealedOrder => r.order.price))
      (compareOn RevealedOrder.orderHash) := rfl

instance : Std.TransCmp compareBuys := by
  have hprice : Std.TransCmp
      (fun a b => compareOn (fun r : RevealedOrder => r.order.price) b a) :=
    Std.TransCmp.opposite
  rw [compareBuys_eq_compareLex]
  infer_instance

instance : Std.TransCmp compareSells := by
  rw [compareSells_eq_compareLex]
  infer_instance

/-- Buys that compare equal have the same hash. -/
theorem orderHash_eq_of_compareBuys {a b : RevealedOrder} (h : compareBuys a b = .eq) :
    a.orderHash = b.orderHash := by
  rw [compareBuys_eq_compareLex, compareLex_eq_eq] at h
  exact Std.LawfulEqOrd.eq_of_compare h.2

/-- Sells that compare equal have the same hash. -/
theorem orderHash_eq_of_compareSells {a b : RevealedOrder} (h : compareSells a b = .eq) :
    a.orderHash = b.orderHash := by
  rw [compareSells_eq_compareLex, compareLex_eq_eq] at h
  exact Std.LawfulEqOrd.eq_of_compare h.2

/-! ## Grouping by symbol -/

/-- Grouping more reveals extends the group of every symbol. -/
theorem lookup_foldl_upsert (reveals : List RevealedOrder)
    (m : HashMap Bytes (List RevealedOrder)) (s : Bytes) :
    ((reveals.foldl (fun m r => m.upsert r.order.symbol [] (fun rs => rs ++ [r])) m).lookup
        s).getD []
      = (m.lookup s).getD [] ++ reveals.filter (fun r => r.order.symbol = s) := by
  induction reveals generalizing m with
  | nil => simp
  | cons r reveals ih =>
      rw [List.foldl_cons, ih, AList.getD_lookup_upsert, List.filter_cons]
      by_cases h : s = r.order.symbol
      · subst h
        simp
      · rw [if_neg h, if_neg (by simpa using Ne.symm h)]

/-- The group of a symbol is the reveals of that symbol. -/
theorem lookup_bySymbol (reveals : List RevealedOrder) (s : Bytes) :
    ((bySymbol reveals).lookup s).getD [] = reveals.filter (fun r => r.order.symbol = s) := by
  rw [bySymbol, lookup_foldl_upsert]
  simp

/-- The symbols that are grouped are the symbols of the reveals. -/
theorem mem_keys_bySymbol {reveals : List RevealedOrder} {s : Bytes} :
    s ∈ (bySymbol reveals).keys ↔ ∃ r ∈ reveals, r.order.symbol = s := by
  have key : ∀ m : HashMap Bytes (List RevealedOrder),
      s ∈ (reveals.foldl (fun m r => m.upsert r.order.symbol [] (fun rs => rs ++ [r])) m)
        ↔ s ∈ m ∨ ∃ r ∈ reveals, r.order.symbol = s := by
    induction reveals with
    | nil => simp
    | cons r reveals ih =>
        intro m
        rw [List.foldl_cons, ih, AList.upsert, AList.mem_insert]
        simp only [List.mem_cons, exists_eq_or_imp, eq_comm (a := s)]
        tauto
  rw [bySymbol, ← AList.mem_keys, key]
  simp

/-- Permuted reveals have the same symbols, up to their order. -/
theorem keys_bySymbol_perm {reveals reveals' : List RevealedOrder} (h : reveals ~ reveals') :
    (bySymbol reveals).keys ~ (bySymbol reveals').keys := by
  refine (List.perm_ext_iff_of_nodup (AList.keys_nodup _) (AList.keys_nodup _)).mpr ?_
  intro s
  rw [mem_keys_bySymbol, mem_keys_bySymbol]
  constructor
  · rintro ⟨r, hr, hs⟩
    exact ⟨r, h.mem_iff.mp hr, hs⟩
  · rintro ⟨r, hr, hs⟩
    exact ⟨r, h.mem_iff.mpr hr, hs⟩

/-! ## The market map -/

/-- Inserting markets of pairwise distinct and fresh symbols binds each symbol to its
minimum quantity. -/
theorem lookup_foldl_insert_market (markets : List MarketConfig) (m : HashMap Bytes UInt64)
    (hnodup : (markets.map MarketConfig.symbol).Nodup)
    (hfresh : ∀ c ∈ markets, m.lookup c.symbol = none) (s : Bytes) (q : UInt64) :
    (markets.foldl (fun m c => m.insert c.symbol c.minQuantity) m).lookup s = some q
      ↔ m.lookup s = some q ∨ ∃ c ∈ markets, c.symbol = s ∧ c.minQuantity = q := by
  induction markets generalizing m with
  | nil => simp
  | cons c markets ih =>
      rw [List.map_cons, List.nodup_cons] at hnodup
      rw [List.foldl_cons, ih _ hnodup.2]
      · by_cases h : s = c.symbol
        · subst h
          have hc := hfresh c List.mem_cons_self
          simp [AList.lookup_insert, hc]
        · rw [AList.lookup_insert_ne h]
          simp [Ne.symm h]
      · intro d hd
        have hne : d.symbol ≠ c.symbol := by
          intro heq
          exact hnodup.1 (heq ▸ List.mem_map_of_mem hd)
        rw [AList.lookup_insert_ne hne]
        exact hfresh d (List.mem_cons_of_mem c hd)

/-- A symbol is bound to the minimum quantity of its market. -/
theorem lookup_marketMap {markets : List MarketConfig}
    (hnodup : (markets.map MarketConfig.symbol).Nodup) (s : Bytes) (q : UInt64) :
    (marketMap markets).lookup s = some q
      ↔ ∃ c ∈ markets, c.symbol = s ∧ c.minQuantity = q := by
  rw [marketMap, lookup_foldl_insert_market markets ∅ hnodup (by simp)]
  simp

/-- Permuted markets give the same map. -/
theorem lookup_marketMap_perm {markets markets' : List MarketConfig}
    (hnodup : (markets.map MarketConfig.symbol).Nodup) (h : markets ~ markets') (s : Bytes) :
    (marketMap markets).lookup s = (marketMap markets').lookup s := by
  have hnodup' := (h.map MarketConfig.symbol).nodup_iff.mp hnodup
  apply Option.ext
  intro q
  rw [lookup_marketMap hnodup, lookup_marketMap hnodup']
  simp only [h.mem_iff]

/-! ## Permuted inputs -/

/-- One symbol's matches depend on the multiset of its reveals, when reveals with the
same hash are the same. -/
theorem matchSymbol_perm [Externals] (batchId poolId : UInt64) (symbol : Bytes)
    {reveals reveals' : List RevealedOrder} (minQuantity : UInt64) (h : reveals ~ reveals')
    (hties : ∀ a ∈ reveals, ∀ b ∈ reveals, a.orderHash = b.orderHash → a = b) :
    matchSymbol batchId poolId symbol reveals minQuantity
      = matchSymbol batchId poolId symbol reveals' minQuantity := by
  have hbuys : sortBy compareBuys (reveals.filter (fun r => r.order.side = 1))
      = sortBy compareBuys (reveals'.filter (fun r => r.order.side = 1)) := by
    refine sortBy_eq_of_perm compareBuys (h.filter _) ?_
    intro a ha b hb hab
    exact hties a (List.mem_filter.mp ha).1 b (List.mem_filter.mp hb).1
      (orderHash_eq_of_compareBuys hab)
  have hsells : sortBy compareSells (reveals.filter (fun r => r.order.side = 0))
      = sortBy compareSells (reveals'.filter (fun r => r.order.side = 0)) := by
    refine sortBy_eq_of_perm compareSells (h.filter _) ?_
    intro a ha b hb hab
    exact hties a (List.mem_filter.mp ha).1 b (List.mem_filter.mp hb).1
      (orderHash_eq_of_compareSells hab)
  unfold matchSymbol sortOrders
  dsimp only
  rw [hbuys, hsells]

/-- **Matching is a function of multisets.**  Permuted reveals, of which any two with
the same hash are the same, and markets with the same minimum quantities give the same
list of matches. -/
theorem runMatching_perm [Externals] (batchId poolId : UInt64)
    {reveals reveals' : List RevealedOrder} {markets markets' : List MarketConfig}
    (hreveals : reveals ~ reveals')
    (hties : ∀ a ∈ reveals, ∀ b ∈ reveals, a.orderHash = b.orderHash → a = b)
    (hmarkets : ∀ s, (marketMap markets).lookup s = (marketMap markets').lookup s) :
    runMatching ⟨batchId, poolId, reveals, markets⟩
      = runMatching ⟨batchId, poolId, reveals', markets'⟩ := by
  have hkeys : sortBy compare (bySymbol reveals).keys
      = sortBy compare (bySymbol reveals').keys :=
    sortBy_eq_of_perm compare (keys_bySymbol_perm hreveals)
      (fun _ _ _ _ h => Std.LawfulEqOrd.eq_of_compare h)
  unfold runMatching
  dsimp only
  rw [hkeys]
  congr 1
  funext s
  rw [hmarkets s, lookup_bySymbol, lookup_bySymbol]
  cases (marketMap markets').lookup s with
  | none => rfl
  | some q =>
      refine matchSymbol_perm batchId poolId s q (hreveals.filter _) ?_
      intro a ha b hb hab
      exact hties a (List.mem_filter.mp ha).1 b (List.mem_filter.mp hb).1 hab

/-- Reveals with pairwise distinct hashes are determined by their hash. -/
theorem eq_of_nodup_orderHash {reveals : List RevealedOrder}
    (h : (reveals.map RevealedOrder.orderHash).Nodup) :
    ∀ a ∈ reveals, ∀ b ∈ reveals, a.orderHash = b.orderHash → a = b :=
  fun _ ha _ hb hab => List.inj_on_of_nodup_map h ha hb hab

/-- **Matching is order-independent.**  For reveals with pairwise distinct order hashes
and markets with pairwise distinct symbols, every permutation of both gives the same
list of matches; and two batch states of one batch and pool with the same set of
reveals and the same set of markets, whatever their iteration orders, compute the
same list. -/
theorem runMatching_order_independent [Externals] :
    (∀ (batchId poolId : UInt64) (reveals reveals' : List RevealedOrder)
        (markets markets' : List MarketConfig),
      (reveals.map RevealedOrder.orderHash).Nodup →
      (markets.map MarketConfig.symbol).Nodup →
      reveals ~ reveals' → markets ~ markets' →
      runMatching ⟨batchId, poolId, reveals, markets⟩
        = runMatching ⟨batchId, poolId, reveals', markets'⟩) ∧
    (∀ s s' : BatchState, s.batchId = s'.batchId → s.poolId = s'.poolId →
      s.matched = false → s'.matched = false →
      (∀ r, r ∈ s.reveals.map.values ↔ r ∈ s'.reveals.map.values) →
      (∀ m, m ∈ s.marketConfigs.map.values ↔ m ∈ s'.marketConfigs.map.values) →
      s.runMatchingOnce.computedMatches = s'.runMatchingOnce.computedMatches) := by
  constructor
  · intro batchId poolId reveals reveals' markets markets' hreveals hmarkets hr hm
    exact runMatching_perm batchId poolId hr (eq_of_nodup_orderHash hreveals)
      (lookup_marketMap_perm hmarkets hm)
  · intro s s' hbatch hpool hs hs' hr hm
    have h := runMatching_perm s.batchId s.poolId (KeyedMap.values_perm_of_mem_iff hr)
      (eq_of_nodup_orderHash s.reveals.nodup_map_key_values)
      (lookup_marketMap_perm s.marketConfigs.nodup_map_key_values
        (KeyedMap.values_perm_of_mem_iff hm))
    simp only [BatchState.runMatchingOnce, hs, hs', BatchState.matchingInput, ← hbatch,
      ← hpool, Bool.false_eq_true, if_false]
    exact h

/-- Three reveals of the market `EMM/KAY`: a buy of NFT 1 and sells of NFTs 2 and 3. -/
def sampleReveals [Externals] : List RevealedOrder :=
  [⟨1, 1, 10, 5⟩, ⟨2, 0, 8, 3⟩, ⟨3, 0, 9, 4⟩].map
    fun (p : UInt64 × UInt8 × UInt64 × UInt64) =>
      let order : Order :=
        ⟨p.1, [69, 77, 77, 47, 75, 65, 89], p.2.1, p.2.2.1, p.2.2.2, 7, [1]⟩
      ⟨order, [], orderHash order⟩

/-- The market of the sample and one without reveals. -/
def sampleMarkets : List MarketConfig :=
  [⟨[69, 77, 77, 47, 75, 65, 89], 1⟩, ⟨[75, 65, 89, 47, 84, 69, 69], 2⟩]

/-- The reversed sample gives the same two matches. -/
theorem runMatching_reversed_sample :
    letI := referenceExternals []
    runMatching ⟨7, 0, sampleReveals, sampleMarkets⟩
        = runMatching ⟨7, 0, sampleReveals.reverse, sampleMarkets.reverse⟩ ∧
      (runMatching ⟨7, 0, sampleReveals, sampleMarkets⟩).length = 2 := by
  let _ := referenceExternals []
  refine ⟨?_, by decide +kernel⟩
  exact runMatching_order_independent.1 7 0 sampleReveals sampleReveals.reverse sampleMarkets
    sampleMarkets.reverse (by decide +kernel) (by decide +kernel)
    (List.reverse_perm _).symm (List.reverse_perm _).symm
