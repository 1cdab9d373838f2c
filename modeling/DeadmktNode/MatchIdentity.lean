/-
# The identity of a match

Settlement knows a match by its hash, over the batch, the two order hashes and the fill.  Every
iteration of the matching loop moves on in one of the two books, whichever branch it takes, so
no two matches are made at one pair of positions and there are fewer matches than orders
(`placedMatches_ascend`, `length_placedMatches_le`).  For orders with distinct hashes the
matches of a batch differ in the bytes that are hashed (`match_identities`).
-/
import DeadmktNode.MatchingSymbols

/-! ## Positions -/

/-- The book positions of a match. -/
def PlacedMatch.position (p : PlacedMatch) : ℕ × ℕ := (p.buyIdx, p.sellIdx)

/-- The book positions that a cursor stands at. -/
def BookCursor.position (c : BookCursor) : ℕ × ℕ := (c.buyIdx, c.sellIdx)

namespace Book

variable [Externals] (B : Book)

/-- **Step.**  Every iteration moves on in one book and back in none. -/
theorem position_lt_of_step {c c' : BookCursor} {o : Option Match}
    (h : B.step c = some (c', o)) : c.position < c'.position := by
  obtain ⟨buy, sell, -, -, -, hstep⟩ := B.step_cases h
  obtain ⟨hbuy, hsell, hmoves⟩ := B.consume_idx c
  unfold BookCursor.position
  rw [Prod.mk_lt_mk]
  cases hstep with
  | skipSell | dustSell => exact .inr ⟨le_refl _, Nat.lt_succ_self _⟩
  | skipBuy | dustBuy => exact .inl ⟨Nat.lt_succ_self _, le_refl _⟩
  | fill => omega

/-- The positions of the matches ascend. -/
theorem placedLoop_ascend (c : BookCursor) :
    ((B.placedLoop.outputs c).map PlacedMatch.position).Pairwise (· < ·) := by
  have hstep : ∀ c c' o, B.placedLoop.step c = some (c', o) →
      c.position < c'.position ∧ ∀ p ∈ o, p.position = c.position := by
    intro c c' o h
    obtain ⟨m, hstep, rfl⟩ := B.placedLoop_step h
    refine ⟨B.position_lt_of_step hstep, fun p hp => ?_⟩
    obtain ⟨m', -, rfl⟩ := Option.map_eq_some_iff.mp hp
    rfl
  exact B.placedLoop.outputs_ascend hstep c

end Book

/-- Pairs of numbers that ascend have ascending sums. -/
theorem nodup_sum_of_ascending {l : List (ℕ × ℕ)} (h : l.Pairwise (· < ·)) :
    (l.map fun p => p.1 + p.2).Nodup := by
  refine List.Pairwise.map _ ?_ h
  rintro ⟨a, b⟩ ⟨a', b'⟩ hlt
  rw [Prod.mk_lt_mk] at hlt
  dsimp only
  omega

section

variable [Externals] (batchId poolId : UInt64) (symbol : Bytes)
  (buys sells : List RevealedOrder) (minQuantity : UInt64)

theorem placedMatches_ascend :
    ((placedMatches batchId poolId symbol buys sells minQuantity).map
      PlacedMatch.position).Pairwise (· < ·) :=
  Book.placedLoop_ascend _ _

/-- There are fewer matches than orders: their positions have different sums, up to that of the
last two orders. -/
theorem length_placedMatches_le :
    (placedMatches batchId poolId symbol buys sells minQuantity).length
      ≤ buys.length + sells.length - 1 := by
  have hnodup := nodup_sum_of_ascending
    (placedMatches_ascend batchId poolId symbol buys sells minQuantity)
  rw [List.map_map] at hnodup
  have hbound : ((placedMatches batchId poolId symbol buys sells minQuantity).map
      ((fun p => p.1 + p.2) ∘ PlacedMatch.position))
        ⊆ List.range (buys.length + sells.length - 1) := by
    intro n hn
    obtain ⟨p, hp, rfl⟩ := List.mem_map.mp hn
    have hw := placedMatches_wellPlaced batchId poolId symbol buys sells minQuantity p hp
    have hbuy : p.buyIdx < buys.length := (List.getElem?_eq_some_iff.mp hw.buyer).1
    have hsell : p.sellIdx < sells.length := (List.getElem?_eq_some_iff.mp hw.seller).1
    rw [List.mem_range]
    show p.buyIdx + p.sellIdx < _
    omega
  have hlength := (List.subperm_of_subset hnodup hbound).length_le
  rwa [List.length_map, List.length_range] at hlength

end

/-! ## The bytes that are hashed -/

namespace Match

/-- The orders of a match. -/
def parties (m : Match) : Hash32 × Hash32 := (m.buyer.orderHash, m.seller.orderHash)

/-- What the hash of a match is taken of. -/
def hashedBytes (m : Match) : Bytes :=
  m.batchId.toLeBytes ++ m.buyer.orderHash.toList ++ m.seller.orderHash.toList
    ++ m.fillQuantity.toLeBytes

theorem parties_eq_of_hashedBytes_eq {m m' : Match} (h : m.hashedBytes = m'.hashedBytes) :
    m.parties = m'.parties := by
  unfold hashedBytes at h
  obtain ⟨h, -⟩ := List.append_inj' h (by simp)
  obtain ⟨h, hsell⟩ := List.append_inj' h (by simp)
  obtain ⟨-, hbuy⟩ := List.append_inj' h (by simp)
  unfold parties
  rw [Vector.toList_inj.mp hbuy, Vector.toList_inj.mp hsell]

end Match

section

variable [Externals]

/-- The hash of a match is that of its own terms. -/
theorem matchHash_of_mem_generateMatches {batchId poolId : UInt64} {symbol : Bytes}
    {buys sells : List RevealedOrder} {minQuantity : UInt64} {m : Match}
    (h : m ∈ generateMatches batchId poolId symbol buys sells minQuantity) :
    m.matchHash = sha256 m.hashedBytes := by
  rw [generateMatches_eq_map_placed] at h
  obtain ⟨p, hp, rfl⟩ := List.mem_map.mp h
  rw [(placedMatches_wellPlaced _ _ _ _ _ _ p hp).made]
  rfl

theorem matchHash_of_mem_runMatching {input : MatchingInput} {m : Match}
    (h : m ∈ runMatching input) : m.matchHash = sha256 m.hashedBytes := by
  obtain ⟨symbol, minQuantity, h⟩ := mem_runMatching h
  exact matchHash_of_mem_generateMatches h

/-! ## Distinct orders -/

/-- In books of distinct orders, matches at different positions have different parties. -/
theorem nodup_parties_generateMatches (batchId poolId : UInt64) (symbol : Bytes)
    {buys sells : List RevealedOrder} (minQuantity : UInt64)
    (hbuys : (buys.map RevealedOrder.orderHash).Nodup)
    (hsells : (sells.map RevealedOrder.orderHash).Nodup) :
    ((generateMatches batchId poolId symbol buys sells minQuantity).map Match.parties).Nodup := by
  have hpositions :=
    (placedMatches_ascend batchId poolId symbol buys sells minQuantity).imp ne_of_lt
  have hwell := placedMatches_wellPlaced batchId poolId symbol buys sells minQuantity
  rw [generateMatches_eq_map_placed, List.map_map]
  refine (List.nodup_map_iff_inj_on (List.Nodup.of_map _ hpositions)).mpr ?_
  intro p hp p' hp' heq
  obtain ⟨hbuyer, hseller⟩ := Prod.mk.inj heq
  -- equal parties stand at equal positions, and no position is matched twice
  have hbuy := idx_eq_of_orderHash_eq hbuys (hwell p hp).buyer (hwell p' hp').buyer hbuyer
  have hsell := idx_eq_of_orderHash_eq hsells (hwell p hp).seller (hwell p' hp').seller hseller
  exact List.inj_on_of_nodup_map hpositions hp hp' (Prod.ext hbuy hsell)

theorem nodup_parties_matchSymbol (batchId poolId : UInt64) (symbol : Bytes)
    {reveals : List RevealedOrder} (minQuantity : UInt64)
    (hnodup : (reveals.map RevealedOrder.orderHash).Nodup) :
    ((matchSymbol batchId poolId symbol reveals minQuantity).map Match.parties).Nodup := by
  have hbook : ∀ (cmp : RevealedOrder → RevealedOrder → Ordering) (p : RevealedOrder → Bool),
      ((sortBy cmp (reveals.filter p)).map RevealedOrder.orderHash).Nodup := fun cmp p =>
    ((sortBy_perm cmp _).map _).nodup_iff.mpr (hnodup.sublist (List.filter_sublist.map _))
  exact nodup_parties_generateMatches batchId poolId symbol minQuantity (hbook _ _) (hbook _ _)

/-- The buyer of a match was revealed under the symbol of its group. -/
theorem buyer_of_mem_symbolMatches {input : MatchingInput} {s : Bytes} {m : Match}
    (h : m ∈ symbolMatches input s) : m.buyer ∈ input.reveals ∧ m.buyer.order.symbol = s := by
  unfold symbolMatches at h
  cases hq : (marketMap input.markets).lookup s with
  | none => simp [hq] at h
  | some q =>
      rw [hq] at h
      have hbuyer := (mem_of_mem_matchSymbol h).1.1
      rwa [MatchingInput.group, List.mem_filter, decide_eq_true_eq] at hbuyer

/-- So have all matches of a batch: orders of two symbols are different orders. -/
theorem nodup_parties_runMatching {input : MatchingInput}
    (hnodup : (input.reveals.map RevealedOrder.orderHash).Nodup) :
    ((runMatching input).map Match.parties).Nodup := by
  rw [runMatching_eq_flatMap, List.map_flatMap, List.nodup_flatMap]
  constructor
  · intro s _
    unfold symbolMatches
    cases (marketMap input.markets).lookup s with
    | none => exact List.nodup_nil
    | some q =>
        exact nodup_parties_matchSymbol _ _ _ q (hnodup.sublist (List.filter_sublist.map _))
  · refine input.symbols_pairwise.imp ?_
    intro s t hlt x hs ht
    obtain ⟨m, hm, rfl⟩ := List.mem_map.mp hs
    obtain ⟨m', hm', hparties⟩ := List.mem_map.mp ht
    obtain ⟨hmem, hsymbol⟩ := buyer_of_mem_symbolMatches hm
    obtain ⟨hmem', hsymbol'⟩ := buyer_of_mem_symbolMatches hm'
    have hsame := eq_of_nodup_orderHash hnodup m'.buyer hmem' m.buyer hmem
      (Prod.mk.inj hparties).1
    rw [hsame, hsymbol] at hsymbol'
    rw [hsymbol', Std.compare_self] at hlt
    cases hlt

/-- Every pair of books is matched at ascending positions, in fewer matches than there are
orders.  If the orders of a batch have distinct hashes and no two different strings that are
hashed for its matches collide, all its match hashes are distinct. -/
theorem match_identities :
    (∀ (batchId poolId : UInt64) (symbol : Bytes) (buys sells : List RevealedOrder)
        (minQuantity : UInt64), ∃ placed : List PlacedMatch,
      generateMatches batchId poolId symbol buys sells minQuantity
          = placed.map PlacedMatch.trade ∧
        (∀ p ∈ placed, buys[p.buyIdx]? = some p.trade.buyer ∧
          sells[p.sellIdx]? = some p.trade.seller) ∧
        (placed.map PlacedMatch.position).Pairwise (· < ·) ∧
        placed.length ≤ buys.length + sells.length - 1) ∧
      ∀ input : MatchingInput, (input.reveals.map RevealedOrder.orderHash).Nodup →
        (∀ m ∈ runMatching input, ∀ m' ∈ runMatching input,
          sha256 m.hashedBytes = sha256 m'.hashedBytes → m.hashedBytes = m'.hashedBytes) →
        (∀ m ∈ runMatching input, m.matchHash = sha256 m.hashedBytes) ∧
          ((runMatching input).map Match.matchHash).Nodup := by
  constructor
  · intro batchId poolId symbol buys sells minQuantity
    refine ⟨placedMatches batchId poolId symbol buys sells minQuantity,
      generateMatches_eq_map_placed .., fun p hp => ?_, placedMatches_ascend ..,
      length_placedMatches_le ..⟩
    have hw := placedMatches_wellPlaced _ _ _ _ _ _ p hp
    exact ⟨hw.buyer, hw.seller⟩
  · intro input hnodup hsha
    refine ⟨fun m hm => matchHash_of_mem_runMatching hm, ?_⟩
    have hparties := nodup_parties_runMatching hnodup
    refine (List.nodup_map_iff_inj_on (List.Nodup.of_map _ hparties)).mpr ?_
    intro m hm m' hm' heq
    rw [matchHash_of_mem_runMatching hm, matchHash_of_mem_runMatching hm'] at heq
    have hbytes := Match.parties_eq_of_hashedBytes_eq (hsha m hm m' hm' heq)
    exact List.inj_on_of_nodup_map hparties hm hm' hbytes

end

/-- The two matches of the sample have two hashes. -/
theorem samples_identified :
    letI := referenceExternals []
    ((runMatching ⟨7, 0, sampleReveals, sampleMarkets⟩).map Match.matchHash).Nodup := by
  let _ := referenceExternals []
  exact (match_identities.2 ⟨7, 0, sampleReveals, sampleMarkets⟩ (by decide +kernel)
    (by decide +kernel)).2
