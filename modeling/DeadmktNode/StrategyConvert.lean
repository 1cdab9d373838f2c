/-
# Strategy orders

The orders of the strategy come as decimal text.  They are converted to fixed point, and
checked one after another against the markets and against the projected balances; the
accepted ones are encoded, hashed and signed for the commit.

The running sums of the balance check are wrapping `u64` sums of outflows that were cut
to `u64`.  When the exact outflows of all orders fit, the check is exact
(`validateOrders_covered`).
-/
import DeadmktNode.EscrowTracker
import DeadmktNode.Orchestrator

/-! ## Orders -/

/-- An order as the strategy writes it. -/
structure OrderSpec where
  pair : String
  side : String
  price : String
  quantity : String
deriving DecidableEq, Repr

/-- An order after conversion. -/
structure CanonicalOrder where
  symbol : Bytes
  side : UInt8
  price : UInt64
  quantity : UInt64
  nftId : UInt64
  batchId : UInt64
  nonce : Bytes
deriving DecidableEq, Repr

inductive StrategyError where
  | invalidPrice (message : String)
  | invalidQuantity (message : String)
  | invalidSide (message : String)
deriving DecidableEq, Repr

/-- The text of an error. -/
def StrategyError.message : StrategyError → String
  | .invalidPrice message => "invalid price: " ++ message
  | .invalidQuantity message => "invalid quantity: " ++ message
  | .invalidSide message => "invalid side: " ++ message

/-! ## Decimal text -/

/-- White space in the sense of Unicode. -/
def isWhitespace (c : Char) : Bool :=
  let n := c.toNat
  (9 ≤ n && n ≤ 13) || n = 0x20 || n = 0x85 || n = 0xA0 || n = 0x1680
    || (0x2000 ≤ n && n ≤ 0x200A) || n = 0x2028 || n = 0x2029 || n = 0x202F || n = 0x205F
    || n = 0x3000

/-- Cut white space off both ends. -/
def trimChars (cs : List Char) : List Char :=
  ((cs.dropWhile isWhitespace).reverse.dropWhile isWhitespace).reverse

/-- The number that decimal digits write. -/
def digitsValue (cs : List Char) : ℕ := cs.foldl (fun n c => 10 * n + (c.toNat - 48)) 0

/-- `str::parse::<u128>` on decimal digits. -/
def parseU128 (digits : List Char) : Except String ℕ :=
  if digits.isEmpty then .error "cannot parse integer from empty string"
  else if digitsValue digits < 2 ^ 128 then .ok (digitsValue digits)
  else .error "number too large to fit in target type"

/-- The fractional digits as a number with `targetDecimals` places: padded with zeros, or
cut. -/
def parseFraction (fracPart : List Char) (targetDecimals : ℕ) : Except String ℕ :=
  if fracPart.isEmpty then .ok 0
  else if fracPart.length ≤ targetDecimals then
    (parseU128 (fracPart ++ List.replicate (targetDecimals - fracPart.length) '0')).mapError
      ("fractional overflow: " ++ ·)
  else
    (parseU128 (fracPart.take targetDecimals)).mapError ("fractional parse: " ++ ·)

/-- Parse decimal text into a fixed-point number.  The factor is a wrapping power. -/
def parseDecimalToFixed (s : String) (targetDecimals : UInt8) : Except String UInt64 :=
  let s := trimChars s.toList
  if s.isEmpty then .error "empty string"
  else
    let integerPart := s.takeWhile (· ≠ '.')
    let fracPart := (s.dropWhile (· ≠ '.')).drop 1
    if !integerPart.all Char.isDigit || integerPart.isEmpty then
      .error ("invalid integer part: '" ++ String.ofList integerPart ++ "'")
    else if !fracPart.all Char.isDigit then
      .error ("invalid fractional part: '" ++ String.ofList fracPart ++ "'")
    else do
      let intVal ← (parseU128 integerPart).mapError ("integer overflow: " ++ ·)
      let fracVal ← parseFraction fracPart targetDecimals.toNat
      let factor := EscrowTracker.pow10 targetDecimals.toUInt32
      if 2 ^ 128 ≤ intVal * factor ∨ 2 ^ 128 ≤ intVal * factor + fracVal then
        .error "overflow in fixed-point conversion"
      else if 2 ^ 64 ≤ intVal * factor + fracVal then .error "result exceeds u64 range"
      else .ok (UInt64.ofNat (intVal * factor + fracVal))

example : parseDecimalToFixed " 0.0499 " 8 = .ok 4990000 := by decide +kernel

/-! ## Conversion of one order -/

/-- The base token of a pair: the text before the first `/`. -/
def baseToken (pair : String) : String := String.ofList (pair.toList.takeWhile (· ≠ '/'))

/-- The quote token of a pair: the text between the first and the second `/`. -/
def quoteToken (pair : String) : String :=
  String.ofList (((pair.toList.dropWhile (· ≠ '/')).drop 1).takeWhile (· ≠ '/'))

/-- The decimals of a token; an unknown token has 5. -/
def decimalsOf (tokenDecimals : HashMap String UInt8) (token : String) : UInt8 :=
  (tokenDecimals.lookup token).getD 5

/-- Convert one order, without looking at the markets. -/
def convertOrder (spec : OrderSpec) (tokenDecimals : HashMap String UInt8)
    (nftId batchId : UInt64) (nonce : Bytes) : Except StrategyError CanonicalOrder := do
  let side : UInt8 ←
    if spec.side = "buy" then .ok 1
    else if spec.side = "sell" then .ok 0
    else .error (.invalidSide spec.side)
  let price ← (parseDecimalToFixed spec.price 8).mapError fun e =>
    .invalidPrice (spec.price ++ ": " ++ e)
  let decimals := decimalsOf tokenDecimals (baseToken spec.pair)
  let quantity ← (parseDecimalToFixed spec.quantity decimals).mapError fun e =>
    .invalidQuantity (spec.quantity ++ ": " ++ e)
  return ⟨spec.pair.toList.flatMap String.utf8EncodeChar, side, price, quantity, nftId,
    batchId, nonce⟩

/-- A converted order carries the NFT and the batch that it was converted for. -/
theorem ids_convertOrder {spec : OrderSpec} {tokenDecimals : HashMap String UInt8}
    {nftId batchId : UInt64} {nonce : Bytes} {order : CanonicalOrder}
    (h : convertOrder spec tokenDecimals nftId batchId nonce = .ok order) :
    order.nftId = nftId ∧ order.batchId = batchId := by
  have hbind : ∀ {α : Type} {e : Except StrategyError α}
      {f : α → Except StrategyError CanonicalOrder},
      e.bind f = .ok order → ∃ a, f a = .ok order := by
    intro α e f h
    cases e with
    | error e => cases h
    | ok a => exact ⟨a, h⟩
  unfold convertOrder at h
  dsimp only at h
  split_ifs at h
  all_goals
    obtain ⟨side, h⟩ := hbind h
    obtain ⟨price, h⟩ := hbind h
    obtain ⟨quantity, h⟩ := hbind h
    obtain rfl := Except.ok.inj h
    exact ⟨rfl, rfl⟩

/-! ## Validation -/

/-- What the orders are checked against. -/
structure OrderValidationContext where
  activePairs : List String
  minQuantities : HashMap String UInt64
  tokenDecimals : HashMap String UInt8
  projectedBalances : HashMap String UInt64
  commitsPerBatch : UInt32
  nftId : UInt64
  batchId : UInt64

/-- The worst-case outflow of an order; `none` is the panic on a zero divisor. -/
def computeOutflow (order : CanonicalOrder) (pair : String)
    (tokenDecimals : HashMap String UInt8) : Option (String × UInt64) :=
  if order.side = 1 then
    let divisor := EscrowTracker.priceDivisor (decimalsOf tokenDecimals (baseToken pair))
      (decimalsOf tokenDecimals (quoteToken pair))
    if divisor = 0 then none
    else some (quoteToken pair,
      EscrowTracker.quoteAmount order.quantity order.price divisor)
  else some (baseToken pair, order.quantity)

/-- The accepted orders, with the text they came from, and the variables of the loop. -/
structure OrderChecks where
  accepted : List (OrderSpec × CanonicalOrder)
  warnings : List String
  cumulativeOutflows : HashMap String UInt64

namespace OrderChecks

def warn (s : OrderChecks) (warning : String) : OrderChecks :=
  { s with warnings := s.warnings ++ [warning] }

/-- The outflow of a token so far. -/
def cumulative (s : OrderChecks) (token : String) : UInt64 :=
  (s.cumulativeOutflows.lookup token).getD 0

/-- Is the quantity below the minimum of its pair, if there is one? -/
def belowMinimum (ctx : OrderValidationContext) (spec : OrderSpec) (order : CanonicalOrder) :
    Option UInt64 :=
  (ctx.minQuantities.lookup spec.pair).filter fun minQty => order.quantity < minQty

/-- The balance check of an order with its outflow: accept it if the running sum stays
within the projected balance. -/
def checkBalance (ctx : OrderValidationContext) (s : OrderChecks) (i : ℕ) (spec : OrderSpec)
    (order : CanonicalOrder) (token : String) (amount : UInt64) : OrderChecks :=
  let s := { s with cumulativeOutflows := s.cumulativeOutflows.upsert token 0 id }
  let newCumulative := s.cumulative token + amount
  let projected := (ctx.projectedBalances.lookup token).getD 0
  if projected < newCumulative then
    s.warn ("order[" ++ toString i ++ "] cumulative outflow " ++ toString newCumulative.toNat
      ++ " exceeds projected " ++ toString projected.toNat ++ " for " ++ token)
  else { s with
    accepted := s.accepted ++ [(spec, order)]
    cumulativeOutflows := s.cumulativeOutflows.insert token newCumulative }

/-- Does a converted order get as far as the balance check? -/
def ReachesBalance (ctx : OrderValidationContext) (spec : OrderSpec) (order : CanonicalOrder) :
    Prop :=
  ctx.activePairs.contains spec.pair = true ∧ order.price ≠ 0 ∧
    belowMinimum ctx spec order = none

instance (ctx : OrderValidationContext) (spec : OrderSpec) (order : CanonicalOrder) :
    Decidable (ReachesBalance ctx spec order) := inferInstanceAs (Decidable (_ ∧ _ ∧ _))

/-- Convert and check one order.  `nonces` are the random nonces of the batch. -/
def checkOrder (ctx : OrderValidationContext) (nonces : ℕ → Bytes) (s : OrderChecks) (i : ℕ)
    (spec : OrderSpec) : Option OrderChecks :=
  match convertOrder spec ctx.tokenDecimals ctx.nftId ctx.batchId (nonces i) with
  | .error e =>
      some (s.warn ("order[" ++ toString i ++ "] conversion failed: " ++ e.message))
  | .ok order =>
      if !ctx.activePairs.contains spec.pair then
        some (s.warn ("order[" ++ toString i ++ "] pair '" ++ spec.pair ++ "' not active"))
      else if order.price = 0 then
        some (s.warn ("order[" ++ toString i ++ "] price is zero"))
      else
        match belowMinimum ctx spec order with
        | some minQty =>
            some (s.warn ("order[" ++ toString i ++ "] quantity "
              ++ toString order.quantity.toNat ++ " < min_quantity "
              ++ toString minQty.toNat))
        | none =>
            (computeOutflow order spec.pair ctx.tokenDecimals).map fun outflow =>
              checkBalance ctx s i spec order outflow.1 outflow.2

/-- Check the orders from index `i` on. -/
def checkOrders (ctx : OrderValidationContext) (nonces : ℕ → Bytes) :
    ℕ → List OrderSpec → OrderChecks → Option OrderChecks
  | _, [], s => some s
  | i, spec :: specs, s =>
      (checkOrder ctx nonces s i spec).bind (checkOrders ctx nonces (i + 1) specs)

end OrderChecks

/-- The orders of a batch that count: at most `commitsPerBatch`. -/
def effectiveSpecs (ctx : OrderValidationContext) (specs : List OrderSpec) : List OrderSpec :=
  specs.take ctx.commitsPerBatch.toNat

/-- Convert and check the orders of a batch. -/
def validateOrders (specs : List OrderSpec) (ctx : OrderValidationContext)
    (nonces : ℕ → Bytes) : Option OrderChecks :=
  OrderChecks.checkOrders ctx nonces 0 (effectiveSpecs ctx specs)
    { accepted := []
      warnings :=
        if ctx.commitsPerBatch.toNat < specs.length then
          ["truncated " ++ toString specs.length ++ " orders to commits_per_batch="
            ++ toString ctx.commitsPerBatch.toNat]
        else []
      cumulativeOutflows := ∅ }

/-! ## The balance check is exact -/

/-- The worst-case outflow of a token in natural numbers. -/
def exactOutflow (tokenDecimals : HashMap String UInt8) (token : String)
    (p : OrderSpec × CanonicalOrder) : ℕ :=
  if p.2.side = 1 then
    if token = quoteToken p.1.pair then
      p.2.quantity.toNat * p.2.price.toNat
        / 10 ^ ((decimalsOf tokenDecimals (baseToken p.1.pair)).toNat + 8
          - (decimalsOf tokenDecimals (quoteToken p.1.pair)).toNat)
    else 0
  else if token = baseToken p.1.pair then p.2.quantity.toNat else 0

/-- The worst-case outflow of a token over several orders. -/
def totalOutflow (tokenDecimals : HashMap String UInt8) (token : String)
    (ps : List (OrderSpec × CanonicalOrder)) : ℕ :=
  (ps.map (exactOutflow tokenDecimals token)).sum

/-- The orders that convert, from index `i` on. -/
def convertedOrders (ctx : OrderValidationContext) (nonces : ℕ → Bytes) :
    ℕ → List OrderSpec → List (OrderSpec × CanonicalOrder)
  | _, [] => []
  | i, spec :: specs =>
      match convertOrder spec ctx.tokenDecimals ctx.nftId ctx.batchId (nonces i) with
      | .error _ => convertedOrders ctx nonces (i + 1) specs
      | .ok order => (spec, order) :: convertedOrders ctx nonces (i + 1) specs

/-- The price scale of an order's pair is one that the code computes exactly. -/
def ScaleFits (tokenDecimals : HashMap String UInt8) (p : OrderSpec × CanonicalOrder) :
    Prop :=
  (decimalsOf tokenDecimals (baseToken p.1.pair)).toNat + 8
    - (decimalsOf tokenDecimals (quoteToken p.1.pair)).toNat ≤ 38

/-- The outflow that the code computes is exact when it fits. -/
theorem computeOutflow_exact {tokenDecimals : HashMap String UInt8}
    {p : OrderSpec × CanonicalOrder} {token : String} {amount : UInt64}
    (hscale : p.2.side = 1 → ScaleFits tokenDecimals p)
    (hfits : ∀ j, exactOutflow tokenDecimals j p < 2 ^ 64)
    (h : computeOutflow p.2 p.1.pair tokenDecimals = some (token, amount)) (j : String) :
    exactOutflow tokenDecimals j p = if j = token then amount.toNat else 0 := by
  unfold computeOutflow at h
  dsimp only at h
  unfold exactOutflow at hfits ⊢
  split_ifs at h with hside hdiv
  · obtain ⟨rfl, rfl⟩ := Prod.mk.inj (Option.some.inj h)
    have hfits := hfits (quoteToken p.1.pair)
    rw [if_pos hside, if_pos rfl] at hfits
    rw [if_pos hside]
    have hlt := Nat.pow_le_pow_right (show 0 < 10 by decide) (hscale hside)
    rw [EscrowTracker.priceDivisor_eq hdiv, Nat.mod_eq_of_lt (hlt.trans_lt (by decide)),
      EscrowTracker.quoteAmount, UInt64.toNat_ofNat_of_lt' hfits]
  · obtain ⟨rfl, rfl⟩ := Prod.mk.inj (Option.some.inj h)
    rw [if_neg hside]

namespace OrderChecks

section

variable {ctx : OrderValidationContext} {nonces : ℕ → Bytes}

/-- Looking a running sum up creates its entry. -/
theorem cumulative_entry (s : OrderChecks) (token j : String) :
    ({ s with cumulativeOutflows :=
      s.cumulativeOutflows.upsert token 0 id } : OrderChecks).cumulative j = s.cumulative j := by
  unfold cumulative
  rw [AList.getD_lookup_upsert]
  split_ifs with hj
  · rw [hj]; rfl
  · rfl

/-- **Inversion of one check.**  An order is left out, or it is accepted with its outflow
added to the running sum of its token, which stays within the projected balance. -/
theorem checkOrder_cases {s s' : OrderChecks} {i : ℕ} {spec : OrderSpec}
    (h : checkOrder ctx nonces s i spec = some s') :
    (s'.accepted = s.accepted ∧ ∀ j, s'.cumulative j = s.cumulative j) ∨
    (∃ order token amount,
      convertOrder spec ctx.tokenDecimals ctx.nftId ctx.batchId (nonces i) = .ok order ∧
      ReachesBalance ctx spec order ∧
      computeOutflow order spec.pair ctx.tokenDecimals = some (token, amount) ∧
      s'.accepted = s.accepted ++ [(spec, order)] ∧
      (∀ j, s'.cumulative j
        = if j = token then s.cumulative token + amount else s.cumulative j) ∧
      s.cumulative token + amount ≤ (ctx.projectedBalances.lookup token).getD 0) := by
  unfold checkOrder at h
  -- a refused order leaves accepted orders and running sums as they were
  cases hconv : convertOrder spec ctx.tokenDecimals ctx.nftId ctx.batchId (nonces i) with
  | error e =>
      rw [hconv] at h
      obtain rfl := Option.some.inj h
      exact .inl ⟨rfl, fun _ => rfl⟩
  | ok order =>
      rw [hconv] at h
      dsimp only at h
      split_ifs at h with hactive hprice
      · obtain rfl := Option.some.inj h
        exact .inl ⟨rfl, fun _ => rfl⟩
      · obtain rfl := Option.some.inj h
        exact .inl ⟨rfl, fun _ => rfl⟩
      · split at h
        · obtain rfl := Option.some.inj h
          exact .inl ⟨rfl, fun _ => rfl⟩
        · rename_i hmin
          have hreach : ReachesBalance ctx spec order := ⟨by simpa using hactive, hprice, hmin⟩
          obtain ⟨⟨token, amount⟩, hout, rfl⟩ := Option.map_eq_some_iff.mp h
          unfold checkBalance
          dsimp only
          rw [cumulative_entry]
          split_ifs with hlow
          · exact .inl ⟨rfl, s.cumulative_entry token⟩
          · refine .inr ⟨order, token, amount, rfl, hreach, hout, rfl, fun j => ?_,
              UInt64.not_lt.mp hlow⟩
            by_cases hj : j = token
            · subst hj
              rw [if_pos rfl, cumulative, AList.lookup_insert, Option.getD_some]
            · rw [if_neg hj, ← s.cumulative_entry token j]
              unfold cumulative
              rw [AList.lookup_insert_ne hj]

/-- The running sums are exact and covered. -/
def Exact (ctx : OrderValidationContext) (s : OrderChecks) : Prop :=
  ∀ token, (s.cumulative token).toNat = totalOutflow ctx.tokenDecimals token s.accepted ∧
    totalOutflow ctx.tokenDecimals token s.accepted
      ≤ ((ctx.projectedBalances.lookup token).getD 0).toNat

/-- The price scale of the next order is exact and its outflow does not overflow the running
sums, if it gets as far as the balance check. -/
def FitsOnTop (ctx : OrderValidationContext) (nonces : ℕ → Bytes) (s : OrderChecks) (i : ℕ)
    (spec : OrderSpec) : Prop :=
  ∀ order, convertOrder spec ctx.tokenDecimals ctx.nftId ctx.batchId (nonces i) = .ok order →
    ReachesBalance ctx spec order →
    (order.side = 1 → ScaleFits ctx.tokenDecimals (spec, order)) ∧
      ∀ token, totalOutflow ctx.tokenDecimals token s.accepted
        + exactOutflow ctx.tokenDecimals token (spec, order) < 2 ^ 64

/-- No running sum overflows while the orders from index `i` on are checked. -/
def SumsFit (ctx : OrderValidationContext) (nonces : ℕ → Bytes) :
    ℕ → List OrderSpec → OrderChecks → Prop
  | _, [], _ => True
  | i, spec :: specs, s => FitsOnTop ctx nonces s i spec ∧
      ∀ s', checkOrder ctx nonces s i spec = some s' → SumsFit ctx nonces (i + 1) specs s'

/-- **Step.**  A check keeps the running sums exact, if the outflow of its order fits on top
of them. -/
theorem Exact.step {s s' : OrderChecks} {i : ℕ} {spec : OrderSpec} (hs : s.Exact ctx)
    (hfits : FitsOnTop ctx nonces s i spec)
    (h : checkOrder ctx nonces s i spec = some s') : s'.Exact ctx := by
  rcases checkOrder_cases h with ⟨hacc, hcum⟩ | ⟨order, token, amount, hconv, hreach, hout,
    hacc, hcum, hle⟩
  · intro j
    rw [hacc, hcum]
    exact hs j
  · obtain ⟨hscale, htotal⟩ := hfits order hconv hreach
    have hexact := computeOutflow_exact hscale
      (fun j => (Nat.le_add_left _ _).trans_lt (htotal j)) hout
    intro j
    have hsum : totalOutflow ctx.tokenDecimals j s'.accepted
        = totalOutflow ctx.tokenDecimals j s.accepted
          + exactOutflow ctx.tokenDecimals j (spec, order) := by
      rw [hacc, totalOutflow, List.map_append, List.sum_append]
      rfl
    obtain ⟨hj, hproj⟩ := hs j
    have htotal := htotal j
    rw [hsum, hcum, hexact]
    rw [hexact] at htotal
    split_ifs with heq
    · subst heq
      rw [if_pos rfl] at htotal
      -- the sum does not wrap, by what was left of the range
      have hadd : (s.cumulative j + amount).toNat
          = totalOutflow ctx.tokenDecimals j s.accepted + amount.toNat := by
        rw [UInt64.toNat_add, hj, Nat.mod_eq_of_lt htotal]
      refine ⟨hadd, ?_⟩
      rw [← hadd]
      exact UInt64.le_iff_toNat_le.mp hle
    · exact ⟨hj, hproj⟩

/-- A check accepts at most the order that it converts. -/
theorem totalOutflow_checkOrder_le {s s' : OrderChecks} {i : ℕ} {spec : OrderSpec}
    (h : checkOrder ctx nonces s i spec = some s') (specs : List OrderSpec)
    (token : String) :
    totalOutflow ctx.tokenDecimals token s'.accepted
        + totalOutflow ctx.tokenDecimals token (convertedOrders ctx nonces (i + 1) specs)
      ≤ totalOutflow ctx.tokenDecimals token s.accepted
        + totalOutflow ctx.tokenDecimals token
          (convertedOrders ctx nonces i (spec :: specs)) := by
  rw [convertedOrders]
  rcases checkOrder_cases h with ⟨hacc, -⟩ | ⟨order, _, _, hconv, -, -, hacc, -, -⟩
  · rw [hacc]
    cases convertOrder spec ctx.tokenDecimals ctx.nftId ctx.batchId (nonces i) with
    | error e => exact le_refl _
    | ok order =>
        refine Nat.add_le_add_left ?_ _
        rw [totalOutflow, totalOutflow, List.map_cons, List.sum_cons]
        exact Nat.le_add_left _ _
  · rw [hacc, hconv]
    simp only [totalOutflow, List.map_append, List.sum_append, List.map_cons, List.sum_cons,
      List.map_nil, List.sum_nil]
    omega

/-- **Run.**  Checking the orders from index `i` on keeps the running sums exact, if none of
them overflows. -/
theorem Exact.run {specs : List OrderSpec} {s s' : OrderChecks} {i : ℕ} (hs : s.Exact ctx)
    (hfits : SumsFit ctx nonces i specs s) (h : checkOrders ctx nonces i specs s = some s') :
    s'.Exact ctx := by
  induction specs generalizing s i with
  | nil =>
      obtain rfl := Option.some.inj h
      exact hs
  | cons spec specs ih =>
      obtain ⟨s₁, h₁, h₂⟩ := Option.bind_eq_some_iff.mp h
      exact ih (hs.step hfits.1 h₁) (hfits.2 s₁ h₁) h₂

/-- The running sums do not overflow, if everything that converts fits on top of them. -/
theorem sumsFit_of_total {specs : List OrderSpec} {s : OrderChecks} {i : ℕ}
    (hscale : ∀ p ∈ convertedOrders ctx nonces i specs, p.2.side = 1 →
      ScaleFits ctx.tokenDecimals p)
    (hfits : ∀ token, totalOutflow ctx.tokenDecimals token s.accepted
      + totalOutflow ctx.tokenDecimals token (convertedOrders ctx nonces i specs) < 2 ^ 64) :
    SumsFit ctx nonces i specs s := by
  induction specs generalizing s i with
  | nil => trivial
  | cons spec specs ih =>
      constructor
      · intro order hconv _
        rw [convertedOrders, hconv] at hscale hfits
        refine ⟨hscale _ List.mem_cons_self, fun token => ?_⟩
        have hfits := hfits token
        rw [totalOutflow, totalOutflow, List.map_cons, List.sum_cons] at hfits
        exact (Nat.add_le_add_left (Nat.le_add_right _ _) _).trans_lt hfits
      · intro s₁ h₁
        have hle := fun token => totalOutflow_checkOrder_le h₁ specs token
        refine ih (fun p hp => hscale p ?_) (fun token => (hle token).trans_lt (hfits token))
        rw [convertedOrders]
        cases convertOrder spec ctx.tokenDecimals ctx.nftId ctx.batchId (nonces i) with
        | error e => exact hp
        | ok order => exact List.mem_cons_of_mem _ hp

/-- Checking accepts at most the orders that are checked. -/
theorem length_checkOrders_le {specs : List OrderSpec} {s s' : OrderChecks} {i : ℕ}
    (h : checkOrders ctx nonces i specs s = some s') :
    s'.accepted.length ≤ s.accepted.length + specs.length := by
  induction specs generalizing s i with
  | nil =>
      obtain rfl := Option.some.inj h
      exact le_refl _
  | cons spec specs ih =>
      obtain ⟨s₁, h₁, h₂⟩ := Option.bind_eq_some_iff.mp h
      have hrest := ih h₂
      rw [List.length_cons]
      rcases checkOrder_cases h₁ with ⟨hacc, -⟩ | ⟨_, _, _, -, -, -, hacc, -, -⟩
      · rw [hacc] at hrest
        omega
      · rw [hacc, List.length_append, List.length_singleton] at hrest
        omega

/-- Checking accepts only orders with the NFT and the batch of the context. -/
theorem ids_checkOrders {specs : List OrderSpec} {s s' : OrderChecks} {i : ℕ}
    (hs : ∀ p ∈ s.accepted, p.2.nftId = ctx.nftId ∧ p.2.batchId = ctx.batchId)
    (h : checkOrders ctx nonces i specs s = some s') :
    ∀ p ∈ s'.accepted, p.2.nftId = ctx.nftId ∧ p.2.batchId = ctx.batchId := by
  induction specs generalizing s i with
  | nil =>
      obtain rfl := Option.some.inj h
      exact hs
  | cons spec specs ih =>
      obtain ⟨s₁, h₁, h₂⟩ := Option.bind_eq_some_iff.mp h
      refine ih (fun p hp => ?_) h₂
      rcases checkOrder_cases h₁ with ⟨hacc, -⟩ | ⟨order, _, _, hconv, -, -, hacc, -, -⟩
      · exact hs p (hacc ▸ hp)
      · rw [hacc, List.mem_append, List.mem_singleton] at hp
        rcases hp with hp | rfl
        · exact hs p hp
        · exact ids_convertOrder hconv

end

end OrderChecks

/-- The outflows of a batch fit: the price scales are computed exactly, and the worst-case
outflows of the orders that convert sum to less than `2 ^ 64` for every token. -/
structure OutflowsFit (ctx : OrderValidationContext) (nonces : ℕ → Bytes)
    (specs : List OrderSpec) : Prop where
  scale : ∀ p ∈ convertedOrders ctx nonces 0 (effectiveSpecs ctx specs), p.2.side = 1 →
    ScaleFits ctx.tokenDecimals p
  total : ∀ token, totalOutflow ctx.tokenDecimals token
    (convertedOrders ctx nonces 0 (effectiveSpecs ctx specs)) < 2 ^ 64

/-- The state in which the orders of a batch start to be checked. -/
def startChecks (ctx : OrderValidationContext) (specs : List OrderSpec) : OrderChecks where
  accepted := []
  warnings :=
    if ctx.commitsPerBatch.toNat < specs.length then
      ["truncated " ++ toString specs.length ++ " orders to commits_per_batch="
        ++ toString ctx.commitsPerBatch.toNat]
    else []
  cumulativeOutflows := ∅

/-- If no running sum overflows, the accepted orders cost at most the projected balance of
every token. -/
theorem totalOutflow_accepted_le {ctx : OrderValidationContext} {nonces : ℕ → Bytes}
    {specs : List OrderSpec} {result : OrderChecks}
    (hfit : OrderChecks.SumsFit ctx nonces 0 (effectiveSpecs ctx specs) (startChecks ctx specs))
    (h : validateOrders specs ctx nonces = some result) (token : String) :
    totalOutflow ctx.tokenDecimals token result.accepted
      ≤ ((ctx.projectedBalances.lookup token).getD 0).toNat :=
  (OrderChecks.Exact.run (fun _ => ⟨rfl, Nat.zero_le _⟩) hfit h token).2

/-- **The balance check is exact.**  If the outflows of a batch fit, the accepted orders
cost at most the projected balance of every token. -/
theorem validateOrders_covered {ctx : OrderValidationContext} {nonces : ℕ → Bytes}
    {specs : List OrderSpec} {result : OrderChecks} (hfit : OutflowsFit ctx nonces specs)
    (h : validateOrders specs ctx nonces = some result) (token : String) :
    totalOutflow ctx.tokenDecimals token result.accepted
      ≤ ((ctx.projectedBalances.lookup token).getD 0).toNat := by
  refine totalOutflow_accepted_le (OrderChecks.sumsFit_of_total hfit.scale fun j => ?_) h token
  rw [startChecks, totalOutflow, List.map_nil, List.sum_nil, Nat.zero_add]
  exact hfit.total j

/-! ## The commit boundary -/

/-- The context of a batch: the configured markets and the projected balances of all
tracked tokens. -/
def validationContext (nftId batchId : UInt64) (params : BatchParams)
    (tracker : EscrowTracker) (tokenDecimals : HashMap String UInt8)
    (marketConfigs : List MarketConfig) : OrderValidationContext where
  activePairs := marketConfigs.map fun mc => fromUtf8Lossy mc.symbol
  minQuantities := marketConfigs.foldl
    (fun m mc => m.insert (fromUtf8Lossy mc.symbol) mc.minQuantity) ∅
  tokenDecimals := tokenDecimals
  projectedBalances := tracker.trackedTokens.foldl
    (fun m token => m.insert token (tracker.projected token)) ∅
  commitsPerBatch := params.commitsPerBatch.toUInt32
  nftId := nftId
  batchId := batchId

/-- The context holds the tracker's projected balances. -/
theorem projectedBalances_validationContext (nftId batchId : UInt64) (params : BatchParams)
    (tracker : EscrowTracker) (tokenDecimals : HashMap String UInt8)
    (marketConfigs : List MarketConfig) (token : String) :
    (((validationContext nftId batchId params tracker tokenDecimals
      marketConfigs).projectedBalances.lookup token).getD 0) = tracker.projected token := by
  simp only [validationContext, AList.lookup_foldl_insert]
  split_ifs with hmem
  · rfl
  · have hnone : tracker.balances.lookup token = none :=
      AList.lookup_eq_none.mpr hmem
    simp [EscrowTracker.projected, hnone]

/-- The order that is signed. -/
def CanonicalOrder.toOrder (c : CanonicalOrder) : Order :=
  ⟨c.nftId, c.symbol, c.side, c.price, c.quantity, c.batchId, c.nonce⟩

/-- Encode, hash and sign an accepted order.  The source expects the encoding to succeed, and it
does for every market whose symbol is shorter than 2^31 bytes (`isSome_encodeOrder_iff`), since
the nonce has 32; the empty string stands for the panic on a longer symbol. -/
def CanonicalOrder.seal [Externals] (signingKey : SigningKey) (c : CanonicalOrder) :
    ValidatedOrder where
  commitHash := (commitHash c.toOrder).toList
  orderBytes := (encodeOrder c.toOrder).getD []
  signature := signOrder signingKey c.toOrder

/-- Convert the strategy's orders for the commit. -/
def convertStrategyOrders [Externals] (orderSpecs : List OrderSpec) (signingKey : SigningKey)
    (nftId batchId : UInt64) (params : BatchParams) (tracker : EscrowTracker)
    (tokenDecimals : HashMap String UInt8) (marketConfigs : List MarketConfig)
    (nonces : ℕ → Bytes) : Option (List ValidatedOrder) :=
  (validateOrders orderSpecs
    (validationContext nftId batchId params tracker tokenDecimals marketConfigs) nonces).map
    fun result => result.accepted.map fun p => p.2.seal signingKey

/-- A sealed order is for its own batch. -/
theorem encodesFor_seal [Externals] (key : SigningKey) (c : CanonicalOrder) :
    EncodesFor c.batchId (c.seal key).orderBytes := by
  intro order hdec
  unfold CanonicalOrder.seal at hdec
  dsimp only at hdec
  cases henc : encodeOrder c.toOrder with
  | none =>
      rw [henc, Option.getD_none, decodeOrder_of_length_lt (by decide)] at hdec
      cases hdec
  | some bs =>
      rw [henc, Option.getD_some, Externals.decode_encode henc] at hdec
      obtain rfl := Option.some.inj hdec
      rfl

/-- The converted orders are for the batch that they were converted for. -/
theorem encodesFor_convertStrategyOrders [Externals] {orderSpecs : List OrderSpec}
    {signingKey : SigningKey} {nftId batchId : UInt64} {params : BatchParams}
    {tracker : EscrowTracker} {tokenDecimals : HashMap String UInt8}
    {marketConfigs : List MarketConfig} {nonces : ℕ → Bytes} {orders : List ValidatedOrder}
    (h : convertStrategyOrders orderSpecs signingKey nftId batchId params tracker
      tokenDecimals marketConfigs nonces = some orders) :
    ∀ v ∈ orders, EncodesFor batchId v.orderBytes := by
  obtain ⟨result, hresult, rfl⟩ := Option.map_eq_some_iff.mp h
  intro v hv
  obtain ⟨p, hp, rfl⟩ := List.mem_map.mp hv
  have hb : p.2.batchId = batchId := (OrderChecks.ids_checkOrders (by simp) hresult p hp).2
  exact hb ▸ encodesFor_seal signingKey p.2

/-- There are at most `commits_per_batch` converted orders. -/
theorem length_convertStrategyOrders_le [Externals] {orderSpecs : List OrderSpec}
    {signingKey : SigningKey} {nftId batchId : UInt64} {params : BatchParams}
    {tracker : EscrowTracker} {tokenDecimals : HashMap String UInt8}
    {marketConfigs : List MarketConfig} {nonces : ℕ → Bytes} {orders : List ValidatedOrder}
    (h : convertStrategyOrders orderSpecs signingKey nftId batchId params tracker
      tokenDecimals marketConfigs nonces = some orders) :
    orders.length ≤ params.commitsPerBatch.toNat := by
  obtain ⟨result, hresult, rfl⟩ := Option.map_eq_some_iff.mp h
  have hlength := OrderChecks.length_checkOrders_le hresult
  rw [List.length_map]
  -- the limit of the context is the parameter as a `u32`
  have hlimit : params.commitsPerBatch.toUInt32.toNat ≤ params.commitsPerBatch.toNat := by
    rw [UInt64.toNat_toUInt32]
    exact Nat.mod_le _ _
  have htake : (effectiveSpecs (validationContext nftId batchId params tracker tokenDecimals
      marketConfigs) orderSpecs).length ≤ params.commitsPerBatch.toUInt32.toNat :=
    List.length_take_le _ _
  simp only [List.length_nil, Nat.zero_add] at hlength
  omega
