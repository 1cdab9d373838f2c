/-
# Symbols do not interfere

The entry point of the engine groups the reveals by symbol in a hash map and goes through
the groups in the order of the symbols.  What a group adds to the result depends on the
reveals and the markets of its own symbol alone (`symbolMatches_restrict`), so that the
result is the concatenation of the results of its symbols, each matched on its own
(`runMatching_symbols`).
-/
import DeadmktNode.MatchingConservation

/-! ## One symbol of an input -/

/-- Does the order have a side that matching knows? -/
def RevealedOrder.sided (r : RevealedOrder) : Bool := r.order.side = 0 || r.order.side = 1

namespace MatchingInput

/-- The part of an input that bears on a symbol. -/
def restrict (input : MatchingInput) (s : Bytes) : MatchingInput where
  batchId := input.batchId
  poolId := input.poolId
  reveals := input.reveals.filter fun r => r.order.symbol = s && r.sided
  markets := input.markets.filter fun c => c.symbol = s

/-- The input without the reveals that `keep` does not hold of. -/
def keepReveals (input : MatchingInput) (keep : RevealedOrder → Bool) : MatchingInput :=
  { input with reveals := input.reveals.filter keep }

/-- The symbols of an input in ascending order. -/
def symbols (input : MatchingInput) : List Bytes := sortBy compare (bySymbol input.reveals).keys

/-- The reveals of a symbol in the order in which they came. -/
def group (input : MatchingInput) (s : Bytes) : List RevealedOrder :=
  input.reveals.filter fun r => r.order.symbol = s

theorem mem_symbols {input : MatchingInput} {s : Bytes} :
    s ∈ input.symbols ↔ ∃ r ∈ input.reveals, r.order.symbol = s := by
  rw [symbols, mem_sortBy, mem_keys_bySymbol]

/-- The symbols ascend strictly. -/
theorem symbols_pairwise (input : MatchingInput) :
    input.symbols.Pairwise fun s t => compare s t = .lt :=
  pairwise_lt_sortBy compare (AList.keys_nodup _) fun _ _ h => Std.LawfulEqOrd.eq_of_compare h

end MatchingInput

section

variable [Externals]

/-- What the group of a symbol adds to the result. -/
def symbolMatches (input : MatchingInput) (s : Bytes) : List Match :=
  match (marketMap input.markets).lookup s with
  | none => []
  | some minQuantity =>
      matchSymbol input.batchId input.poolId s (input.group s) minQuantity

theorem runMatching_eq_flatMap (input : MatchingInput) :
    runMatching input = input.symbols.flatMap (symbolMatches input) := by
  unfold runMatching symbolMatches
  dsimp only
  simp only [lookup_bySymbol]
  rfl

/-- A group without reveals adds nothing. -/
theorem symbolMatches_eq_nil {input : MatchingInput} {s : Bytes} (h : s ∉ input.symbols) :
    symbolMatches input s = [] := by
  have hgroup : input.group s = [] := by
    rw [MatchingInput.group, List.filter_eq_nil_iff]
    intro r hr
    rw [decide_eq_true_eq]
    exact fun hs => h (MatchingInput.mem_symbols.mpr ⟨r, hr, hs⟩)
  unfold symbolMatches
  rw [hgroup]
  cases (marketMap input.markets).lookup s with
  | none => rfl
  | some q =>
      dsimp only
      unfold matchSymbol generateMatches sortOrders
      simp

/-- What a group adds are matches of its symbol. -/
theorem symbol_of_mem_symbolMatches {input : MatchingInput} {s : Bytes} {m : Match}
    (h : m ∈ symbolMatches input s) : m.symbol = s := by
  unfold symbolMatches at h
  cases hq : (marketMap input.markets).lookup s with
  | none => simp [hq] at h
  | some q =>
      rw [hq] at h
      exact (context_of_mem_generateMatches _ _ _ _ h).2.2

/-! ## A group depends on its own symbol -/

/-- Matching a symbol looks at the buys and the sells among its reveals. -/
theorem matchSymbol_congr (batchId poolId : UInt64) (s : Bytes)
    {reveals reveals' : List RevealedOrder} (minQuantity : UInt64)
    (h : reveals.filter RevealedOrder.sided = reveals'.filter RevealedOrder.sided) :
    matchSymbol batchId poolId s reveals minQuantity
      = matchSymbol batchId poolId s reveals' minQuantity := by
  have hside : ∀ (side : UInt8) (rs : List RevealedOrder), side = 0 ∨ side = 1 →
      rs.filter (fun r => r.order.side = side)
        = (rs.filter RevealedOrder.sided).filter (fun r => r.order.side = side) := by
    intro side rs hside
    rw [List.filter_filter]
    refine List.filter_congr fun r _ => ?_
    unfold RevealedOrder.sided
    rcases hside with rfl | rfl
    · cases hr : decide (r.order.side = 0) <;> simp
    · cases hr : decide (r.order.side = 1) <;> simp
  unfold matchSymbol
  rw [hside 1 reveals (.inr rfl), hside 0 reveals (.inl rfl), h,
    ← hside 1 reveals' (.inr rfl), ← hside 0 reveals' (.inl rfl)]

omit [Externals] in
/-- The market of a symbol is among the configs of that symbol. -/
theorem lookup_foldl_insert_filter (markets : List MarketConfig) (s : Bytes) :
    ∀ m m' : HashMap Bytes UInt64, m.lookup s = m'.lookup s →
      ((markets.filter fun c => c.symbol = s).foldl
          (fun m c => m.insert c.symbol c.minQuantity) m).lookup s
        = (markets.foldl (fun m c => m.insert c.symbol c.minQuantity) m').lookup s := by
  induction markets with
  | nil => exact fun _ _ h => h
  | cons c markets ih =>
      intro m m' h
      rw [List.foldl_cons, List.filter_cons]
      by_cases hc : c.symbol = s
      · rw [if_pos (decide_eq_true hc), List.foldl_cons]
        refine ih _ _ ?_
        rw [hc, AList.lookup_insert, AList.lookup_insert]
      · rw [if_neg (by simpa using hc)]
        refine ih _ _ ?_
        rw [AList.lookup_insert_ne (Ne.symm hc), h]

omit [Externals] in
theorem lookup_marketMap_filter (markets : List MarketConfig) (s : Bytes) :
    (marketMap (markets.filter fun c => c.symbol = s)).lookup s = (marketMap markets).lookup s :=
  lookup_foldl_insert_filter markets s ∅ ∅ rfl

omit [Externals] in
/-- A symbol has a market if a config names it. -/
theorem lookup_marketMap_eq_none {markets : List MarketConfig} {s : Bytes}
    (h : s ∉ markets.map MarketConfig.symbol) : (marketMap markets).lookup s = none := by
  rw [← lookup_marketMap_filter, List.filter_eq_nil_iff.mpr]
  · rfl
  · intro c hc
    rw [decide_eq_true_eq]
    exact fun hs => h (hs ▸ List.mem_map_of_mem hc)

/-- **A group is alone.**  What a symbol adds is what it adds on its own. -/
theorem symbolMatches_restrict (input : MatchingInput) (s : Bytes) :
    symbolMatches (input.restrict s) s = symbolMatches input s := by
  unfold symbolMatches
  rw [show (input.restrict s).markets = input.markets.filter (fun c => c.symbol = s) from rfl,
    lookup_marketMap_filter]
  cases (marketMap input.markets).lookup s with
  | none => rfl
  | some q =>
      refine matchSymbol_congr _ _ s q ?_
      unfold MatchingInput.group MatchingInput.restrict
      rw [List.filter_filter, List.filter_filter, List.filter_filter]
      refine List.filter_congr fun r _ => ?_
      cases r.sided <;> simp

/-- The matches of a symbol are what its group adds. -/
theorem filter_symbol_runMatching (input : MatchingInput) (s : Bytes) :
    (runMatching input).filter (fun m => m.symbol = s) = symbolMatches input s := by
  rw [runMatching_eq_flatMap, List.filter_flatMap]
  -- the group of another symbol has no match of this one
  have hfilter : ∀ t, (symbolMatches input t).filter (fun m => m.symbol = s)
      = if t = s then symbolMatches input s else [] := by
    intro t
    split_ifs with h
    · subst h
      exact List.filter_eq_self.mpr fun m hm =>
        decide_eq_true (symbol_of_mem_symbolMatches hm)
    · refine List.filter_eq_nil_iff.mpr fun m hm => ?_
      rw [decide_eq_true_eq, symbol_of_mem_symbolMatches hm]
      exact h
  rw [funext hfilter, flatMap_eq_of_support compare input.symbols_pairwise
    (List.pairwise_singleton _ s), List.flatMap_singleton, if_pos rfl]
  · intro t ht
    split_ifs with h
    · exact symbolMatches_eq_nil (h ▸ ht)
    · rfl
  · intro t ht
    exact if_neg fun h => ht (List.mem_singleton.mpr h)

/-- The restricted input has no matches but those of its symbol. -/
theorem runMatching_restrict (input : MatchingInput) (s : Bytes) :
    runMatching (input.restrict s) = symbolMatches input s := by
  rw [← symbolMatches_restrict, ← filter_symbol_runMatching, List.filter_eq_self.mpr]
  intro m hm
  obtain ⟨⟨hbuyer, hsymbol, -⟩, -⟩ := terms_of_mem_runMatching hm
  rw [MatchingInput.restrict, List.mem_filter, Bool.and_eq_true, decide_eq_true_eq] at hbuyer
  rw [decide_eq_true_eq, ← hsymbol]
  exact hbuyer.2.1

/-- Reveals of a symbol without a market, or of a side that is neither buy nor sell, add
nothing to their group. -/
theorem symbolMatches_keepReveals {input : MatchingInput} {keep : RevealedOrder → Bool}
    (h : ∀ r ∈ input.reveals, keep r = false →
      r.order.symbol ∉ input.markets.map MarketConfig.symbol ∨
        (r.order.side ≠ 0 ∧ r.order.side ≠ 1)) (s : Bytes) :
    symbolMatches (input.keepReveals keep) s = symbolMatches input s := by
  unfold symbolMatches
  show (match (marketMap input.markets).lookup s with | none => _ | some q => _) = _
  by_cases hs : s ∈ input.markets.map MarketConfig.symbol
  · cases (marketMap input.markets).lookup s with
    | none => rfl
    | some q =>
        refine matchSymbol_congr _ _ s q ?_
        unfold MatchingInput.group MatchingInput.keepReveals
        rw [List.filter_filter, List.filter_filter, List.filter_filter]
        refine List.filter_congr fun r hr => ?_
        cases hkeep : keep r with
        | true => rw [Bool.and_true]
        | false =>
            rw [Bool.and_false, eq_comm, Bool.and_eq_false_iff, decide_eq_false_iff_not]
            rcases h r hr hkeep with hno | ⟨hzero, hone⟩
            · exact .inr fun heq => hno (heq ▸ hs)
            · left
              unfold RevealedOrder.sided
              rw [decide_eq_false hzero, decide_eq_false hone, Bool.or_false]
  · rw [lookup_marketMap_eq_none hs]

/-- **Symbols do not interfere.**  The matches of a symbol are those of the input restricted
to it; reveals without a market or without a side change nothing; and the result is the
concatenation of the results of the symbols in ascending byte order. -/
theorem runMatching_symbols (input : MatchingInput) :
    (∀ s, (runMatching input).filter (fun m => m.symbol = s) = runMatching (input.restrict s)) ∧
      (∀ keep : RevealedOrder → Bool,
        (∀ r ∈ input.reveals, keep r = false →
          r.order.symbol ∉ input.markets.map MarketConfig.symbol ∨
            (r.order.side ≠ 0 ∧ r.order.side ≠ 1)) →
        runMatching (input.keepReveals keep) = runMatching input) ∧
      ∃ symbols : List Bytes, symbols.Pairwise (fun s t => compare s t = .lt) ∧
        (∀ m ∈ runMatching input, m.symbol ∈ symbols) ∧
        runMatching input = symbols.flatMap fun s => runMatching (input.restrict s) := by
  refine ⟨fun s => ?_, fun keep hkeep => ?_, input.symbols, input.symbols_pairwise, ?_, ?_⟩
  · rw [filter_symbol_runMatching, runMatching_restrict]
  · have hsame := symbolMatches_keepReveals hkeep
    rw [runMatching_eq_flatMap, runMatching_eq_flatMap, funext hsame]
    refine flatMap_eq_of_support compare (MatchingInput.symbols_pairwise _)
      input.symbols_pairwise ?_ fun s hs => symbolMatches_eq_nil hs
    intro s hs
    rw [← hsame]
    exact symbolMatches_eq_nil hs
  · intro m hm
    obtain ⟨⟨hbuyer, hsymbol, -⟩, -⟩ := terms_of_mem_runMatching hm
    exact MatchingInput.mem_symbols.mpr ⟨m.buyer, hbuyer, hsymbol⟩
  · rw [runMatching_eq_flatMap]
    simp only [runMatching_restrict]

end
