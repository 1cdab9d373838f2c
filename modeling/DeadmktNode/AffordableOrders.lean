/-
# Which orders pass the balance check

The checks before the balance are exact.  The running sum of a token is the sum of the scaled
outflows modulo `2 ^ 64`, so the accepted orders are affordable as long as no order passes with
a sum of `2 ^ 64` or more, and where the scale is exact only then
(`validateOrders_affordable_iff`).  From 39 places on the wrapped divisor makes the scaled
outflow larger than the exact one, which is zero there; such an overflow can be harmless.
-/
import DeadmktNode.QuoteAmounts
import DeadmktNode.StrategyConvert

/-! ## What an order costs -/

/-- The worst-case outflow of a token, for any decimals. -/
def worstCase (tokenDecimals : HashMap String UInt8) (token : String)
    (p : OrderSpec × CanonicalOrder) : ℕ :=
  if p.2.side = 1 then
    if token = quoteToken p.1.pair then
      exactQuote p.2.quantity p.2.price (decimalsOf tokenDecimals (baseToken p.1.pair))
        (decimalsOf tokenDecimals (quoteToken p.1.pair))
    else 0
  else if token = baseToken p.1.pair then p.2.quantity.toNat else 0

/-- The outflow of a token as the code scales it, before it is cut to 64 bits. -/
def scaledOutflow (tokenDecimals : HashMap String UInt8) (token : String)
    (p : OrderSpec × CanonicalOrder) : ℕ :=
  if p.2.side = 1 then
    if token = quoteToken p.1.pair then
      p.2.quantity.toNat * p.2.price.toNat
        / EscrowTracker.priceDivisor (decimalsOf tokenDecimals (baseToken p.1.pair))
          (decimalsOf tokenDecimals (quoteToken p.1.pair))
    else 0
  else if token = baseToken p.1.pair then p.2.quantity.toNat else 0

section

variable {tokenDecimals : HashMap String UInt8} {p : OrderSpec × CanonicalOrder}

/-- The divisor of a buy whose outflow is computed is the power of ten cut to 128 bits. -/
theorem divisor_of_computeOutflow (h : computeOutflow p.2 p.1.pair tokenDecimals ≠ none)
    (hside : p.2.side = 1) :
    EscrowTracker.priceDivisor (decimalsOf tokenDecimals (baseToken p.1.pair))
      (decimalsOf tokenDecimals (quoteToken p.1.pair)) ≠ 0 := by
  intro hzero
  unfold computeOutflow at h
  dsimp only at h
  rw [if_pos hside, if_pos hzero] at h
  exact h rfl

/-- The scaled outflow is at least the exact one. -/
theorem worstCase_le_scaledOutflow (h : computeOutflow p.2 p.1.pair tokenDecimals ≠ none)
    (token : String) : worstCase tokenDecimals token p ≤ scaledOutflow tokenDecimals token p := by
  unfold worstCase scaledOutflow
  split_ifs with hside htoken
  · have hne := divisor_of_computeOutflow h hside
    have hpos := Nat.pos_of_ne_zero hne
    rw [EscrowTracker.priceDivisor_eq hne] at hpos ⊢
    rw [exactQuote_of_le ((EscrowTracker.priceDivisor_ne_zero_iff _ _).mp hne).1]
    exact Nat.div_le_div_left (Nat.mod_le _ _) hpos
  all_goals rfl

/-- With at most 38 places it is the exact one. -/
theorem scaledOutflow_eq_worstCase (h : computeOutflow p.2 p.1.pair tokenDecimals ≠ none)
    (hscale : p.2.side = 1 → ScaleFits tokenDecimals p) (token : String) :
    scaledOutflow tokenDecimals token p = worstCase tokenDecimals token p := by
  unfold worstCase scaledOutflow
  split_ifs with hside htoken
  · have hne := divisor_of_computeOutflow h hside
    have hlt := Nat.pow_le_pow_right (show 0 < 10 by decide) (hscale hside)
    rw [EscrowTracker.priceDivisor_eq hne, Nat.mod_eq_of_lt (hlt.trans_lt (by decide)),
      exactQuote_of_le ((EscrowTracker.priceDivisor_ne_zero_iff _ _).mp hne).1]
  all_goals rfl

/-- The computed outflow is the scaled one, cut to 64 bits, of one token. -/
theorem scaledOutflow_of_computeOutflow {token : String} {amount : UInt64}
    (h : computeOutflow p.2 p.1.pair tokenDecimals = some (token, amount)) :
    amount.toNat = scaledOutflow tokenDecimals token p % 2 ^ 64 ∧
      ∀ j, j ≠ token → scaledOutflow tokenDecimals j p = 0 := by
  unfold computeOutflow at h
  dsimp only at h
  unfold scaledOutflow
  split_ifs at h with hside hdiv
  · obtain ⟨rfl, rfl⟩ := Prod.mk.inj (Option.some.inj h)
    rw [if_pos hside, if_pos rfl, EscrowTracker.quoteAmount, UInt64.toNat_ofNat']
    refine ⟨rfl, fun j hj => ?_⟩
    rw [if_pos hside, if_neg hj]
  · obtain ⟨rfl, rfl⟩ := Prod.mk.inj (Option.some.inj h)
    rw [if_neg hside, if_pos rfl, Nat.mod_eq_of_lt p.2.quantity.toNat_lt]
    refine ⟨rfl, fun j hj => ?_⟩
    rw [if_neg hside, if_neg hj]

end

namespace OrderChecks

/-! ## The state of the checks -/

/-- What the accepted orders cost. -/
def totalWorstCase (ctx : OrderValidationContext) (token : String) (s : OrderChecks) : ℕ :=
  (s.accepted.map (worstCase ctx.tokenDecimals token)).sum

/-- What the accepted orders cost as the code scales it. -/
def totalScaled (ctx : OrderValidationContext) (token : String) (s : OrderChecks) : ℕ :=
  (s.accepted.map (scaledOutflow ctx.tokenDecimals token)).sum

/-- The projected balance of a token. -/
def projected (ctx : OrderValidationContext) (token : String) : UInt64 :=
  (ctx.projectedBalances.lookup token).getD 0

/-- The accepted orders cost at most the projected balances. -/
def Covered (ctx : OrderValidationContext) (s : OrderChecks) : Prop :=
  ∀ token, totalWorstCase ctx token s ≤ (projected ctx token).toNat

/-- Every accepted order passed the checks before the balance and has an outflow; the running
sums are the scaled outflows modulo `2 ^ 64`. -/
structure Admits (ctx : OrderValidationContext) (s : OrderChecks) : Prop where
  sound : ∀ p ∈ s.accepted, ReachesBalance ctx p.1 p.2
  computed : ∀ p ∈ s.accepted, computeOutflow p.2 p.1.pair ctx.tokenDecimals ≠ none
  sums : ∀ token, (s.cumulative token).toNat = totalScaled ctx token s % 2 ^ 64

section

variable {ctx : OrderValidationContext} {nonces : ℕ → Bytes} {s s' : OrderChecks} {i : ℕ}
  {spec : OrderSpec}

/-- Scaled outflows are no smaller than exact ones. -/
theorem totalWorstCase_le_totalScaled (hs : s.Admits ctx) (token : String) :
    totalWorstCase ctx token s ≤ totalScaled ctx token s :=
  List.sum_le_sum fun p hp => worstCase_le_scaledOutflow (hs.computed p hp) token

/-- **Step.**  A check keeps the running sums. -/
theorem Admits.step (hs : s.Admits ctx) (h : checkOrder ctx nonces s i spec = some s') :
    s'.Admits ctx := by
  rcases checkOrder_cases h with ⟨hacc, hcum⟩ | ⟨order, token, amount, -, hreach, hout, hacc,
    hcum, -⟩
  · refine ⟨?_, ?_, fun j => ?_⟩
    · rw [hacc]
      exact hs.sound
    · rw [hacc]
      exact hs.computed
    · rw [hcum, hs.sums, totalScaled, totalScaled, hacc]
  · refine ⟨?_, ?_, fun j => ?_⟩
    · rw [hacc]
      exact List.forall_mem_append.mpr ⟨hs.sound, List.forall_mem_singleton.mpr hreach⟩
    · rw [hacc]
      refine List.forall_mem_append.mpr ⟨hs.computed, List.forall_mem_singleton.mpr ?_⟩
      rw [hout]
      exact Option.some_ne_none _
    · obtain ⟨hamount, hzero⟩ := scaledOutflow_of_computeOutflow (p := (spec, order)) hout
      have htotal : totalScaled ctx j s'
          = totalScaled ctx j s + scaledOutflow ctx.tokenDecimals j (spec, order) := by
        rw [totalScaled, totalScaled, hacc, List.map_append, List.sum_append, List.map_singleton,
          List.sum_singleton]
      rw [htotal, hcum]
      split_ifs with hj
      · rw [hj, UInt64.toNat_add, hs.sums, hamount, ← Nat.add_mod]
      · rw [hzero j hj, add_zero, hs.sums]

/-- An order that passes the balance check is accepted. -/
theorem checkOrder_of_passes {order : CanonicalOrder} {token : String} {amount : UInt64}
    (hconv : convertOrder spec ctx.tokenDecimals ctx.nftId ctx.batchId (nonces i) = .ok order)
    (hreach : ReachesBalance ctx spec order)
    (hout : computeOutflow order spec.pair ctx.tokenDecimals = some (token, amount))
    (hpasses : s.cumulative token + amount ≤ projected ctx token)
    (h : checkOrder ctx nonces s i spec = some s') :
    s'.accepted = s.accepted ++ [(spec, order)] := by
  obtain ⟨hactive, hprice, hmin⟩ := hreach
  unfold checkOrder at h
  rw [hconv] at h
  dsimp only at h
  rw [hactive, hmin, hout] at h
  simp only [Bool.not_true, Bool.false_eq_true, if_false, if_neg hprice, Option.map_some,
    Option.some.injEq] at h
  subst h
  unfold checkBalance
  dsimp only
  have hle : ¬ (ctx.projectedBalances.lookup token).getD 0 < s.cumulative token + amount :=
    UInt64.not_lt.mpr hpasses
  rw [cumulative_entry, if_neg hle]

/-! ## Orders that pass with an overflow -/

/-- If the next order passes the balance check, then the scaled outflows of the accepted orders
and its own sum to less than `2 ^ 64`. -/
def PassesInRange (ctx : OrderValidationContext) (nonces : ℕ → Bytes) (s : OrderChecks) (i : ℕ)
    (spec : OrderSpec) : Prop :=
  ∀ order token amount,
    convertOrder spec ctx.tokenDecimals ctx.nftId ctx.batchId (nonces i) = .ok order →
    ReachesBalance ctx spec order →
    computeOutflow order spec.pair ctx.tokenDecimals = some (token, amount) →
    s.cumulative token + amount ≤ projected ctx token →
    totalScaled ctx token s + scaledOutflow ctx.tokenDecimals token (spec, order) < 2 ^ 64

/-- That is so for every order from index `i` on. -/
def AllPassInRange (ctx : OrderValidationContext) (nonces : ℕ → Bytes) :
    ℕ → List OrderSpec → OrderChecks → Prop
  | _, [], _ => True
  | i, spec :: specs, s => PassesInRange ctx nonces s i spec ∧
      ∀ s', checkOrder ctx nonces s i spec = some s' → AllPassInRange ctx nonces (i + 1) specs s'

/-- The pair of an order has at most 38 places, so that its scale is exact. -/
def ExactScale (ctx : OrderValidationContext) (spec : OrderSpec) : Prop :=
  (decimalsOf ctx.tokenDecimals (baseToken spec.pair)).toNat + 8
    - (decimalsOf ctx.tokenDecimals (quoteToken spec.pair)).toNat ≤ 38

/-- With exact scales, orders that are covered have not overflowed. -/
theorem inRange_of_scale {order : CanonicalOrder} {token : String} (hs : s.Admits ctx)
    (hout : computeOutflow order spec.pair ctx.tokenDecimals ≠ none)
    (hold : ∀ p ∈ s.accepted, ExactScale ctx p.1) (hnew : ExactScale ctx spec)
    (hcov : totalWorstCase ctx token s + worstCase ctx.tokenDecimals token (spec, order)
      ≤ (projected ctx token).toNat) :
    totalScaled ctx token s + scaledOutflow ctx.tokenDecimals token (spec, order) < 2 ^ 64 := by
  have htotal : totalScaled ctx token s = totalWorstCase ctx token s :=
    congrArg List.sum (List.map_congr_left fun p hp =>
      scaledOutflow_eq_worstCase (hs.computed p hp) (fun _ => hold p hp) token)
  have hown := scaledOutflow_eq_worstCase (p := (spec, order)) hout (fun _ => hnew) token
  rw [htotal, hown]
  exact hcov.trans_lt (projected ctx token).toNat_lt

/-- The cost of the accepted orders after one more. -/
theorem totalWorstCase_snoc {order : CanonicalOrder}
    (hacc : s'.accepted = s.accepted ++ [(spec, order)]) (token : String) :
    totalWorstCase ctx token s'
      = totalWorstCase ctx token s + worstCase ctx.tokenDecimals token (spec, order) := by
  rw [totalWorstCase, totalWorstCase, hacc, List.map_append, List.sum_append,
    List.map_singleton, List.sum_singleton]

/-- **Step.**  A check keeps the accepted orders covered if its order passes in range, if at
all. -/
theorem covered_checkOrder (hs : s.Admits ctx) (hcov : s.Covered ctx)
    (h : checkOrder ctx nonces s i spec = some s') (hrange : PassesInRange ctx nonces s i spec) :
    s'.Covered ctx := by
  intro j
  have hs' := hs.step h
  rcases checkOrder_cases h with ⟨hacc, -⟩ | ⟨order, token, amount, hconv, hreach, hout, hacc,
    hcum, hle⟩
  · rw [totalWorstCase, hacc]
    exact hcov j
  · obtain ⟨-, hzero⟩ := scaledOutflow_of_computeOutflow (p := (spec, order)) hout
    by_cases hj : j = token
    · subst hj
      -- the running sum is the scaled total, which is at least the exact one
      have hscaled : totalScaled ctx j s'
          = totalScaled ctx j s + scaledOutflow ctx.tokenDecimals j (spec, order) := by
        rw [totalScaled, totalScaled, hacc, List.map_append, List.sum_append,
          List.map_singleton, List.sum_singleton]
      have hfits := hrange order j amount hconv hreach hout hle
      have hsum := hs'.sums j
      rw [hscaled, Nat.mod_eq_of_lt hfits, hcum, if_pos rfl] at hsum
      have hexact := totalWorstCase_le_totalScaled hs' j
      rw [hscaled, ← hsum] at hexact
      exact hexact.trans (UInt64.le_iff_toNat_le.mp hle)
    · have hout' : computeOutflow order spec.pair ctx.tokenDecimals ≠ none := by
        rw [hout]
        exact Option.some_ne_none _
      have hnone := worstCase_le_scaledOutflow (p := (spec, order)) hout' j
      rw [hzero j hj] at hnone
      rw [totalWorstCase_snoc hacc, Nat.le_zero.mp hnone, add_zero]
      exact hcov j

/-- With exact scales it keeps them covered only then. -/
theorem passesInRange_of_covered (hs : s.Admits ctx)
    (hold : ∀ p ∈ s.accepted, ExactScale ctx p.1) (hnew : ExactScale ctx spec)
    (h : checkOrder ctx nonces s i spec = some s') (hcov' : s'.Covered ctx) :
    PassesInRange ctx nonces s i spec := by
  intro order token amount hconv hreach hout hpasses
  have hout' : computeOutflow order spec.pair ctx.tokenDecimals ≠ none := by
    rw [hout]
    exact Option.some_ne_none _
  refine inRange_of_scale hs hout' hold hnew ?_
  rw [← totalWorstCase_snoc (checkOrder_of_passes hconv hreach hout hpasses h)]
  exact hcov' token

/-- What a check has accepted stays accepted. -/
theorem accepted_prefix_checkOrder (h : checkOrder ctx nonces s i spec = some s') :
    s.accepted <+: s'.accepted := by
  rcases checkOrder_cases h with ⟨hacc, -⟩ | ⟨_, _, _, -, -, -, hacc, -, -⟩
  · exact hacc ▸ List.prefix_rfl
  · exact hacc ▸ List.prefix_append _ _

/-- Orders that were accepted stay accepted. -/
theorem accepted_prefix_checkOrders {specs : List OrderSpec}
    (h : checkOrders ctx nonces i specs s = some s') : s.accepted <+: s'.accepted := by
  induction specs generalizing s i with
  | nil =>
      obtain rfl := Option.some.inj h
      exact List.prefix_rfl
  | cons spec specs ih =>
      obtain ⟨s₁, h₁, h₂⟩ := Option.bind_eq_some_iff.mp h
      exact (accepted_prefix_checkOrder h₁).trans (ih h₂)

/-- What is covered in the end was covered before. -/
theorem Covered.of_prefix (h : s.accepted <+: s'.accepted) (hcov : s'.Covered ctx) :
    s.Covered ctx := by
  intro token
  obtain ⟨rest, hrest⟩ := h
  refine le_trans ?_ (hcov token)
  rw [totalWorstCase, totalWorstCase, ← hrest, List.map_append, List.sum_append]
  exact Nat.le_add_right _ _

/-- **Run.**  The checks from index `i` on keep the accepted orders covered if all orders that
pass do so in range. -/
theorem covered_checkOrders {specs : List OrderSpec} (hs : s.Admits ctx) (hcov : s.Covered ctx)
    (h : checkOrders ctx nonces i specs s = some s')
    (hrange : AllPassInRange ctx nonces i specs s) : s'.Covered ctx := by
  induction specs generalizing s i with
  | nil =>
      obtain rfl := Option.some.inj h
      exact hcov
  | cons spec specs ih =>
      obtain ⟨s₁, h₁, h₂⟩ := Option.bind_eq_some_iff.mp h
      exact ih (hs.step h₁) (covered_checkOrder hs hcov h₁ hrange.1) h₂ (hrange.2 s₁ h₁)

/-- With exact scales they keep them covered only then. -/
theorem allPassInRange_of_covered {specs : List OrderSpec} (hs : s.Admits ctx)
    (hold : ∀ p ∈ s.accepted, ExactScale ctx p.1) (hnew : ∀ spec ∈ specs, ExactScale ctx spec)
    (h : checkOrders ctx nonces i specs s = some s') (hcov' : s'.Covered ctx) :
    AllPassInRange ctx nonces i specs s := by
  induction specs generalizing s i with
  | nil => trivial
  | cons spec specs ih =>
      obtain ⟨s₁, h₁, h₂⟩ := Option.bind_eq_some_iff.mp h
      have hcov₁ := hcov'.of_prefix (accepted_prefix_checkOrders h₂)
      have hspec : ExactScale ctx spec := hnew spec List.mem_cons_self
      have hold₁ : ∀ p ∈ s₁.accepted, ExactScale ctx p.1 := by
        rcases checkOrder_cases h₁ with ⟨hacc, -⟩ | ⟨order, _, _, -, -, -, hacc, -, -⟩
        · rwa [hacc]
        · rw [hacc]
          exact List.forall_mem_append.mpr ⟨hold, List.forall_mem_singleton.mpr hspec⟩
      refine ⟨passesInRange_of_covered hs hold hspec h₁ hcov₁, fun s₂ hs₂ => ?_⟩
      obtain rfl := Option.some.inj (h₁.symm.trans hs₂)
      exact ih (hs.step h₁) hold₁ (fun p hp => hnew p (List.mem_cons_of_mem _ hp)) h₂

/-- **Run.**  The checks keep the invariant. -/
theorem Admits.run {specs : List OrderSpec} (hs : s.Admits ctx)
    (h : checkOrders ctx nonces i specs s = some s') : s'.Admits ctx := by
  induction specs generalizing s i with
  | nil =>
      obtain rfl := Option.some.inj h
      exact hs
  | cons spec specs ih =>
      obtain ⟨s₁, h₁, h₂⟩ := Option.bind_eq_some_iff.mp h
      exact ih (hs.step h₁) h₂

/-- The checks accept orders in the order in which they convert. -/
theorem accepted_sublist {specs : List OrderSpec}
    (h : checkOrders ctx nonces i specs s = some s') :
    s'.accepted.Sublist (s.accepted ++ convertedOrders ctx nonces i specs) := by
  induction specs generalizing s i with
  | nil =>
      obtain rfl := Option.some.inj h
      rw [convertedOrders, List.append_nil]
  | cons spec specs ih =>
      obtain ⟨s₁, h₁, h₂⟩ := Option.bind_eq_some_iff.mp h
      refine (ih h₂).trans ?_
      rw [convertedOrders]
      rcases checkOrder_cases h₁ with ⟨hacc, -⟩ | ⟨order, _, _, hconv, -, -, hacc, -, -⟩
      · rw [hacc]
        refine (List.Sublist.refl _).append ?_
        split
        · exact List.Sublist.refl _
        · exact List.sublist_cons_self _ _
      · rw [hacc, hconv, List.append_assoc, List.singleton_append]

end

end OrderChecks

/-- The orders beyond a limit convert after the others. -/
theorem convertedOrders_take_sublist (ctx : OrderValidationContext) (nonces : ℕ → Bytes)
    (specs : List OrderSpec) (i n : ℕ) :
    (convertedOrders ctx nonces i (specs.take n)).Sublist (convertedOrders ctx nonces i specs) := by
  induction specs generalizing i n with
  | nil => rw [List.take_nil]
  | cons spec specs ih =>
      cases n with
      | zero => exact List.nil_sublist _
      | succ n =>
          rw [List.take_succ_cons, convertedOrders, convertedOrders]
          split
          · exact ih (i + 1) n
          · exact (ih (i + 1) n).cons_cons _

/-! ## Only affordable, well-formed orders -/

/-- The accepted orders are no more than the limit, chosen in order from the converted ones, on
active pairs, priced, of at least the minimum, and together affordable. -/
structure AcceptsAffordable (ctx : OrderValidationContext) (nonces : ℕ → Bytes)
    (specs : List OrderSpec) (result : OrderChecks) : Prop where
  limit : result.accepted.length ≤ ctx.commitsPerBatch.toNat
  chosen : result.accepted.Sublist (convertedOrders ctx nonces 0 specs)
  active : ∀ p ∈ result.accepted, p.1.pair ∈ ctx.activePairs
  priced : ∀ p ∈ result.accepted, 0 < p.2.price
  minimum : ∀ p ∈ result.accepted, ∀ minQty, ctx.minQuantities.lookup p.1.pair = some minQty →
    minQty ≤ p.2.quantity
  affordable : ∀ token,
    (result.accepted.map (worstCase ctx.tokenDecimals token)).sum
      ≤ ((ctx.projectedBalances.lookup token).getD 0).toNat

/-- What is covered was accepted by the checks before the balance. -/
theorem acceptsAffordable_of_covered {ctx : OrderValidationContext} {nonces : ℕ → Bytes}
    {specs : List OrderSpec} {result : OrderChecks}
    (h : validateOrders specs ctx nonces = some result) (hresult : result.Admits ctx)
    (hcov : result.Covered ctx) : AcceptsAffordable ctx nonces specs result := by
  refine ⟨?_, ?_, ?_, ?_, ?_, hcov⟩
  · have hlength := OrderChecks.length_checkOrders_le h
    have htake := List.length_take_le ctx.commitsPerBatch.toNat specs
    simp only [List.length_nil, Nat.zero_add] at hlength
    exact hlength.trans htake
  · have hsublist := OrderChecks.accepted_sublist h
    exact hsublist.trans (convertedOrders_take_sublist ctx nonces specs 0 _)
  · intro p hp
    exact List.contains_iff_mem.mp (hresult.sound p hp).1
  · intro p hp
    exact UInt64.pos_iff_ne_zero.mpr (hresult.sound p hp).2.1
  · intro p hp minQty hmin
    have hbelow := (hresult.sound p hp).2.2
    unfold OrderChecks.belowMinimum at hbelow
    rw [hmin, Option.filter_eq_none_iff] at hbelow
    simpa using hbelow

/-- **What is accepted.**  The accepted orders are affordable and well-formed if no order passes
the balance check with a scaled sum of `2 ^ 64` or more, and only then if the scale of every
order is exact. -/
theorem validateOrders_affordable_iff {ctx : OrderValidationContext} {nonces : ℕ → Bytes}
    {specs : List OrderSpec} {result : OrderChecks}
    (h : validateOrders specs ctx nonces = some result) :
    (OrderChecks.AllPassInRange ctx nonces 0 (effectiveSpecs ctx specs)
        (startChecks ctx specs) → AcceptsAffordable ctx nonces specs result) ∧
      ((∀ spec ∈ effectiveSpecs ctx specs, OrderChecks.ExactScale ctx spec) →
        (AcceptsAffordable ctx nonces specs result ↔
          OrderChecks.AllPassInRange ctx nonces 0 (effectiveSpecs ctx specs)
            (startChecks ctx specs))) := by
  have hstart : (startChecks ctx specs).Admits ctx :=
    ⟨fun _ hp => absurd hp List.not_mem_nil, fun _ hp => absurd hp List.not_mem_nil,
      fun _ => rfl⟩
  have hresult := hstart.run h
  have henough : OrderChecks.AllPassInRange ctx nonces 0 (effectiveSpecs ctx specs)
      (startChecks ctx specs) → AcceptsAffordable ctx nonces specs result := fun hrange =>
    acceptsAffordable_of_covered h hresult
      (OrderChecks.covered_checkOrders hstart (fun _ => Nat.zero_le _) h hrange)
  refine ⟨henough, fun hscale => ⟨fun haccepts => ?_, henough⟩⟩
  exact OrderChecks.allPassInRange_of_covered hstart (fun _ hp => absurd hp List.not_mem_nil)
    hscale h haccepts.affordable

/-- A context without configured decimals: every token has 5. -/
def sampleContext (projectedBalances : HashMap String UInt64) : OrderValidationContext :=
  ⟨["EMM/KAY"], ∅, ∅, projectedBalances, 3, 1, 7⟩

/-- A small sell. -/
def sellSpec : OrderSpec := ⟨"EMM/KAY", "sell", "0.0499", "0.0005"⟩

/-- A sell of 50 units is covered by 60. -/
theorem small_sell_accepted :
    ∃ result, validateOrders [sellSpec] (sampleContext (AList.singleton "EMM" 60))
        (fun _ => []) = some result ∧
      AcceptsAffordable (sampleContext (AList.singleton "EMM" 60)) (fun _ => []) [sellSpec]
        result := by
  have hruns : (validateOrders [sellSpec] (sampleContext (AList.singleton "EMM" 60))
      fun _ => []).isSome := by decide +kernel
  obtain ⟨result, hresult⟩ := Option.isSome_iff_exists.mp hruns
  have hscale : ∀ spec ∈ effectiveSpecs (sampleContext (AList.singleton "EMM" 60)) [sellSpec],
      OrderChecks.ExactScale (sampleContext (AList.singleton "EMM" 60)) spec := by
    intro spec hspec
    obtain rfl := List.mem_singleton.mp hspec
    unfold OrderChecks.ExactScale
    decide +kernel
  refine ⟨result, hresult,
    ((validateOrders_affordable_iff hresult).2 hscale).mpr ⟨?_, fun _ _ => trivial⟩⟩
  intro order token amount hconv _ hout _
  have hconv' : convertOrder sellSpec ∅ 1 7 []
      = .ok ⟨[69, 77, 77, 47, 75, 65, 89], 0, 4990000, 50, 1, 7, []⟩ := by decide +kernel
  obtain rfl := Except.ok.inj (hconv.symm.trans hconv')
  obtain ⟨rfl, -⟩ := Prod.mk.inj (Option.some.inj hout)
  decide +kernel

/-- A buy that costs `2 ^ 64` units of quote. -/
def largeBuySpec : OrderSpec := ⟨"EMM/KAY", "buy", "429496.7296", "429496729.6"⟩

/-- Its outflow is cut to zero, and it is accepted without any balance. -/
theorem large_buy_accepted :
    ¬ ∀ (specs : List OrderSpec) (ctx : OrderValidationContext) (nonces : ℕ → Bytes)
      (result : OrderChecks), validateOrders specs ctx nonces = some result →
      AcceptsAffordable ctx nonces specs result := by
  intro h
  let order : CanonicalOrder :=
    ⟨[69, 77, 77, 47, 75, 65, 89], 1, 42949672960000, 42949672960000, 1, 7, []⟩
  have hruns : (validateOrders [largeBuySpec] (sampleContext ∅) fun _ => []).map
      OrderChecks.accepted = some [(largeBuySpec, order)] := by decide +kernel
  obtain ⟨result, hresult, haccepted⟩ := Option.map_eq_some_iff.mp hruns
  have hkay := (h _ _ _ _ hresult).affordable "KAY"
  have hcost : worstCase ∅ "KAY" (largeBuySpec, order) = 2 ^ 64 := by
    rw [worstCase, if_pos rfl, if_pos (by decide +kernel), exactQuote_of_le (by decide +kernel)]
    decide +kernel
  rw [haccepted, List.map_singleton, List.sum_singleton] at hkay
  exact absurd (hcost ▸ hkay) (by decide +kernel)
