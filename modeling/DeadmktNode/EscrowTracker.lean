/-
# The escrow tracker

Projected balances of this node's tokens.  A token has a confirmed balance, outflows
and inflows of matches that are not settled yet, keyed by match hash, and an earmark for
withdrawals.  Only outflows count before a settlement is confirmed; then the outflow
entry is dropped and the inflow is added to the confirmed balance.

Sums and increments wrap like the `u64` arithmetic of the release build.  An operation
that fails may have created an empty entry for its token.
-/
import DeadmktNode.BatchClock
import DeadmktNode.HashMap

/-! ## Errors and sides -/

inductive EscrowError where
  | insufficientBalance (need have_ : UInt64)
  | unknownToken (token : String)
  | duplicatePending (matchHash : String)
  | pendingNotFound (matchHash : String)
  | earmarkExceedsProjected (need have_ : UInt64)
deriving DecidableEq, Repr

/-- The text of an error. -/
def EscrowError.message : EscrowError → String
  | .insufficientBalance need have_ =>
      "insufficient projected balance: need " ++ toString need.toNat ++ ", have "
        ++ toString have_.toNat
  | .unknownToken token => "unknown token: " ++ token
  | .duplicatePending matchHash => "duplicate pending entry: " ++ matchHash
  | .pendingNotFound matchHash => "pending entry not found: " ++ matchHash
  | .earmarkExceedsProjected need have_ =>
      "earmark exceeds projected: need " ++ toString need.toNat ++ ", have "
        ++ toString have_.toNat

/-- Our side of a match. -/
inductive Side where
  | buy
  | sell
deriving DecidableEq, Repr

/-- What a match moves for our side. -/
structure EscrowFlow where
  outToken : String
  outAmount : UInt64
  inToken : String
  inAmount : UInt64
deriving DecidableEq

/-! ## One token -/

/-- The balance state of one token. -/
structure TokenBalance where
  confirmed : UInt64
  pendingOut : HashMap String UInt64
  pendingIn : HashMap String UInt64
  earmarked : UInt64
deriving DecidableEq

/-- The wrapping sum of the stored amounts. -/
def sumAmounts (m : HashMap String UInt64) : UInt64 := m.values.foldl (· + ·) 0

/-- The sum of the stored amounts as a natural number. -/
def exactSum (m : HashMap String UInt64) : ℕ := m.sumValues UInt64.toNat

theorem toNat_foldl_add (l : List UInt64) (a : UInt64) :
    (l.foldl (· + ·) a).toNat = (a.toNat + (l.map UInt64.toNat).sum) % 2 ^ 64 := by
  induction l generalizing a with
  | nil => simp
  | cons b l ih =>
      rw [List.foldl_cons, ih, UInt64.toNat_add, List.map_cons, List.sum_cons, Nat.mod_add_mod,
        Nat.add_assoc]

/-- The wrapping sum is exact as long as it does not overflow. -/
theorem toNat_sumAmounts {m : HashMap String UInt64} (h : exactSum m < 2 ^ 64) :
    (sumAmounts m).toNat = exactSum m := by
  unfold sumAmounts
  rw [toNat_foldl_add, UInt64.toNat_zero, Nat.zero_add]
  exact Nat.mod_eq_of_lt h

/-- Dropping an outflow does not increase the sum. -/
theorem exactSum_erase_le (m : HashMap String UInt64) (h : String) :
    exactSum (m.erase h) ≤ exactSum m := by
  refine AList.sumValues_le_of_lookup fun k v hk => .inr ⟨v, ?_, le_refl _⟩
  by_cases hne : k = h
  · subst hne
    rw [AList.lookup_erase] at hk
    cases hk
  · rwa [AList.lookup_erase_ne hne] at hk

/-- A new entry adds its amount to the sum. -/
theorem exactSum_insert {m : HashMap String UInt64} {h : String} (hnew : m.lookup h = none)
    (amount : UInt64) : exactSum (m.insert h amount) = amount.toNat + exactSum m :=
  AList.sumValues_insert_of_notMem (AList.lookup_eq_none.mp hnew) amount UInt64.toNat

namespace TokenBalance

/-- The entry of a token that was not seen before. -/
def empty : TokenBalance := ⟨0, ∅, ∅, 0⟩

/-- The projected available balance; it never goes below zero. -/
def projected (bal : TokenBalance) : UInt64 :=
  (bal.confirmed.saturatingSub (sumAmounts bal.pendingOut)).saturatingSub bal.earmarked

/-- The projected balance in natural numbers, when the outflows do not overflow. -/
theorem toNat_projected {bal : TokenBalance} (h : exactSum bal.pendingOut < 2 ^ 64) :
    bal.projected.toNat
      = bal.confirmed.toNat - exactSum bal.pendingOut - bal.earmarked.toNat := by
  rw [projected, UInt64.toNat_saturatingSub, UInt64.toNat_saturatingSub, toNat_sumAmounts h]

/-- Is a match pending on this token? -/
def hasPending (bal : TokenBalance) (matchHash : String) : Bool :=
  (bal.pendingOut.lookup matchHash).isSome || (bal.pendingIn.lookup matchHash).isSome

/-- Must a reservation of `amount` for a match be refused? -/
def Refuses (bal : TokenBalance) (matchHash : String) (amount : UInt64) : Prop :=
  (bal.pendingOut.lookup matchHash).isSome ∨ bal.projected < amount

instance (bal : TokenBalance) (matchHash : String) (amount : UInt64) :
    Decidable (bal.Refuses matchHash amount) :=
  inferInstanceAs (Decidable (_ ∨ _))

/-- Reserve an outflow. -/
@[simps] def addOut (bal : TokenBalance) (matchHash : String) (amount : UInt64) : TokenBalance :=
  { bal with pendingOut := bal.pendingOut.insert matchHash amount }

/-- The answer to a reservation. -/
def reserveResult (bal : TokenBalance) (matchHash : String) (amount : UInt64) :
    Except EscrowError Unit :=
  if (bal.pendingOut.lookup matchHash).isSome then .error (.duplicatePending matchHash)
  else if bal.projected < amount then .error (.insufficientBalance amount bal.projected)
  else .ok ()

/-- The answer to tracking an inflow. -/
def trackResult (bal : TokenBalance) (matchHash : String) : Except EscrowError Unit :=
  if (bal.pendingIn.lookup matchHash).isSome then .error (.duplicatePending matchHash)
  else .ok ()

theorem reserveResult_of_refuses {bal : TokenBalance} {matchHash : String}
    {amount : UInt64} (h : bal.Refuses matchHash amount) :
    ∃ e, bal.reserveResult matchHash amount = .error e := by
  unfold reserveResult
  split_ifs with hdup hlow
  · exact ⟨_, rfl⟩
  · exact ⟨_, rfl⟩
  · exact absurd h (not_or.mpr ⟨hdup, hlow⟩)

theorem reserveResult_of_not_refuses {bal : TokenBalance} {matchHash : String}
    {amount : UInt64} (h : ¬ bal.Refuses matchHash amount) :
    bal.reserveResult matchHash amount = .ok () := by
  obtain ⟨hdup, hlow⟩ := not_or.mp h
  rw [reserveResult, if_neg hdup, if_neg hlow]

/-- Track an inflow. -/
@[simps] def addIn (bal : TokenBalance) (matchHash : String) (amount : UInt64) : TokenBalance :=
  { bal with pendingIn := bal.pendingIn.insert matchHash amount }

/-- The match settled: drop its outflow and credit its inflow. -/
@[simps] def confirm (bal : TokenBalance) (matchHash : String) : TokenBalance :=
  { bal with
    confirmed := bal.confirmed + (bal.pendingIn.lookup matchHash).getD 0
    pendingOut := bal.pendingOut.erase matchHash
    pendingIn := bal.pendingIn.erase matchHash }

/-- The match will not settle: drop both entries. -/
@[simps] def release (bal : TokenBalance) (matchHash : String) : TokenBalance :=
  { bal with
    pendingOut := bal.pendingOut.erase matchHash
    pendingIn := bal.pendingIn.erase matchHash }

end TokenBalance

/-! ## All tokens -/

structure EscrowTracker where
  balances : HashMap String TokenBalance
deriving DecidableEq

namespace EscrowTracker

def new : EscrowTracker := ⟨∅⟩

/-- The balance state of a token; an unseen token reads as empty. -/
def balance (t : EscrowTracker) (token : String) : TokenBalance :=
  (t.balances.lookup token).getD .empty

/-- Update the entry of a token, creating it if needed. -/
def update (t : EscrowTracker) (token : String) (f : TokenBalance → TokenBalance) :
    EscrowTracker := ⟨t.balances.upsert token .empty f⟩

/-- Set the confirmed balance from a chain read. -/
def setConfirmed (t : EscrowTracker) (token : String) (amount : UInt64) : EscrowTracker :=
  t.update token fun bal => { bal with confirmed := amount }

/-- Reserve the outflow of a match. -/
def reserveOutflow (t : EscrowTracker) (token matchHash : String) (amount : UInt64) :
    Except EscrowError Unit × EscrowTracker :=
  let t := t.update token id
  let bal := t.balance token
  if (bal.pendingOut.lookup matchHash).isSome then (.error (.duplicatePending matchHash), t)
  else if bal.projected < amount then
    (.error (.insufficientBalance amount bal.projected), t)
  else
    (.ok (), t.update token fun bal => bal.addOut matchHash amount)

/-- Track the expected inflow of a match. -/
def trackInflow (t : EscrowTracker) (token matchHash : String) (amount : UInt64) :
    Except EscrowError Unit × EscrowTracker :=
  let t := t.update token id
  let bal := t.balance token
  if (bal.pendingIn.lookup matchHash).isSome then (.error (.duplicatePending matchHash), t)
  else
    (.ok (), t.update token fun bal => bal.addIn matchHash amount)

/-- Is a match pending on any token? -/
def hasPending (t : EscrowTracker) (matchHash : String) : Bool :=
  t.balances.values.any fun bal => bal.hasPending matchHash

/-- The match settled on chain: drop its outflows and credit its inflows. -/
def confirmSettlement (t : EscrowTracker) (matchHash : String) :
    Except EscrowError Unit × EscrowTracker :=
  (if t.hasPending matchHash then .ok () else .error (.pendingNotFound matchHash),
    ⟨t.balances.mapValues fun bal => bal.confirm matchHash⟩)

/-- The match failed or expired: drop its entries. -/
def releasePending (t : EscrowTracker) (matchHash : String) :
    Except EscrowError Unit × EscrowTracker :=
  (if t.hasPending matchHash then .ok () else .error (.pendingNotFound matchHash),
    ⟨t.balances.mapValues fun bal => bal.release matchHash⟩)

/-- Earmark funds for a withdrawal. -/
def earmarkWithdrawal (t : EscrowTracker) (token : String) (amount : UInt64) :
    Except EscrowError Unit × EscrowTracker :=
  let t := t.update token id
  let bal := t.balance token
  if bal.projected < amount then
    (.error (.earmarkExceedsProjected amount bal.projected), t)
  else (.ok (), t.update token fun bal => { bal with earmarked := bal.earmarked + amount })

/-- Release an earmark; an executed withdrawal also leaves the confirmed balance. -/
def releaseEarmark (t : EscrowTracker) (token : String) (amount : UInt64) (executed : Bool) :
    Except EscrowError Unit × EscrowTracker :=
  match t.balances.lookup token with
  | none => (.error (.unknownToken token), t)
  | some _ =>
      (.ok (), t.update token fun bal =>
        { bal with
          earmarked := bal.earmarked.saturatingSub amount
          confirmed :=
            if executed then bal.confirmed.saturatingSub amount else bal.confirmed })

/-- The projected balance of a token, `0` if it is unknown. -/
def projected (t : EscrowTracker) (token : String) : UInt64 :=
  ((t.balances.lookup token).map TokenBalance.projected).getD 0

/-- The tokens with an entry, in iteration order. -/
def trackedTokens (t : EscrowTracker) : List String := t.balances.keys

/-! ## Matches -/

/-- `10u128.pow(exponent)` in wrapping arithmetic: from `2 ^ 128` on it is `0`. -/
def pow10 (exponent : UInt32) : ℕ :=
  if exponent.toNat < 128 then 10 ^ exponent.toNat % 2 ^ 128 else 0

/-- The divisor that scales `quantity * price` to quote units.  Prices have 8 decimals;
the exponent is a wrapping `u32` difference. -/
def priceDivisor (baseDecimals quoteDecimals : UInt8) : ℕ :=
  pow10 (baseDecimals.toUInt32 + 8 - quoteDecimals.toUInt32)

/-- The exponent as a natural number: it wraps where the quote decimals are too many. -/
theorem toNat_scaleExponent (baseDecimals quoteDecimals : UInt8) :
    (baseDecimals.toUInt32 + 8 - quoteDecimals.toUInt32).toNat
      = (2 ^ 32 - quoteDecimals.toNat + (baseDecimals.toNat + 8)) % 2 ^ 32 := by
  have hb := baseDecimals.toNat_lt
  rw [UInt32.toNat_sub, UInt32.toNat_add, UInt8.toNat_toUInt32, UInt8.toNat_toUInt32,
    show (8 : UInt32).toNat = 8 from rfl]
  omega

/-- A divisor that is not zero is the scale `10 ^ (base + 8 - quote)` cut to 128 bits: the
exponent did not wrap. -/
theorem priceDivisor_eq {baseDecimals quoteDecimals : UInt8}
    (h : priceDivisor baseDecimals quoteDecimals ≠ 0) :
    priceDivisor baseDecimals quoteDecimals
      = 10 ^ (baseDecimals.toNat + 8 - quoteDecimals.toNat) % 2 ^ 128 := by
  have hb := baseDecimals.toNat_lt
  have hq := quoteDecimals.toNat_lt
  unfold priceDivisor pow10 at h ⊢
  rw [toNat_scaleExponent] at h ⊢
  split_ifs at h ⊢ with hlt
  · rw [show (2 ^ 32 - quoteDecimals.toNat + (baseDecimals.toNat + 8)) % 2 ^ 32
      = baseDecimals.toNat + 8 - quoteDecimals.toNat by omega]
  · exact absurd rfl h

/-- The quote amount of a fill at a price, cut to `u64`. -/
def quoteAmount (fillQuantity price : UInt64) (divisor : ℕ) : UInt64 :=
  UInt64.ofNat (fillQuantity.toNat * price.toNat / divisor)

/-- One operation after another on a tracker; the second runs if the first succeeds. -/
def andThen (r : Except EscrowError Unit × EscrowTracker)
    (f : EscrowTracker → Except EscrowError Unit × EscrowTracker) :
    Except EscrowError Unit × EscrowTracker :=
  match r with
  | (.ok (), t) => f t
  | (.error e, t) => (.error e, t)

/-- A buy pays quote, at most at the buyer's price; a sell pays base. -/
def matchFlow (mySide : Side) (baseToken quoteToken : String)
    (fillQuantity buyerPrice settlementPrice : UInt64) (divisor : ℕ) : EscrowFlow :=
  match mySide with
  | .buy =>
      ⟨quoteToken, quoteAmount fillQuantity buyerPrice divisor, baseToken, fillQuantity⟩
  | .sell =>
      ⟨baseToken, fillQuantity, quoteToken, quoteAmount fillQuantity settlementPrice divisor⟩

/-- Reserve the outflow, then track the inflow. -/
def applyFlow (t : EscrowTracker) (matchHash : String) (flow : EscrowFlow) :
    Except EscrowError Unit × EscrowTracker :=
  andThen (t.reserveOutflow flow.outToken matchHash flow.outAmount) fun t =>
    t.trackInflow flow.inToken matchHash flow.inAmount

/-- Apply a match for our side: reserve the outflow on one token, track the inflow on the
other.  `none` is the panic of the division by a zero divisor. -/
def applyMatch (t : EscrowTracker) (matchHash : String) (mySide : Side)
    (baseToken quoteToken : String) (fillQuantity buyerPrice settlementPrice : UInt64)
    (baseDecimals quoteDecimals : UInt8) :
    Option (Except EscrowError Unit × EscrowTracker) :=
  let divisor := priceDivisor baseDecimals quoteDecimals
  if divisor = 0 then none
  else some (t.applyFlow matchHash
    (matchFlow mySide baseToken quoteToken fillQuantity buyerPrice settlementPrice divisor))

/-! ## What the operations do to one token -/

@[simp] theorem balance_update (t : EscrowTracker) (token : String)
    (f : TokenBalance → TokenBalance) (j : String) :
    (t.update token f).balance j = if j = token then f (t.balance token) else t.balance j :=
  AList.getD_lookup_upsert t.balances j token .empty f

/-- Creating the entry of a token does not change what is read. -/
theorem balance_update_id (t : EscrowTracker) (token j : String) :
    (t.update token id).balance j = t.balance j := by
  rw [balance_update]
  split_ifs with h
  · rw [h]; rfl
  · rfl

@[simp] theorem balance_confirmSettlement (t : EscrowTracker) (matchHash j : String) :
    (t.confirmSettlement matchHash).2.balance j = (t.balance j).confirm matchHash := by
  simp only [confirmSettlement, balance, AList.lookup_mapValues]
  cases t.balances.lookup j <;> rfl

@[simp] theorem balance_releasePending (t : EscrowTracker) (matchHash j : String) :
    (t.releasePending matchHash).2.balance j = (t.balance j).release matchHash := by
  simp only [releasePending, balance, AList.lookup_mapValues]
  cases t.balances.lookup j <;> rfl

/-- The projected balance is that of what is read. -/
theorem projected_eq (t : EscrowTracker) (token : String) :
    t.projected token = (t.balance token).projected := by
  unfold projected balance
  cases t.balances.lookup token <;> rfl

/-- A reservation succeeds unless it must be refused. -/
theorem reserveOutflow_fst (t : EscrowTracker) (token matchHash : String) (amount : UInt64) :
    (t.reserveOutflow token matchHash amount).1
      = (t.balance token).reserveResult matchHash amount := by
  simp only [reserveOutflow, balance_update_id, TokenBalance.reserveResult]
  split_ifs <;> rfl

/-- A reservation that succeeds enters the outflows of its token; one that is refused
changes no balance. -/
theorem balance_reserveOutflow (t : EscrowTracker) (token matchHash : String)
    (amount : UInt64) (j : String) :
    (t.reserveOutflow token matchHash amount).2.balance j
      = if j = token ∧ ¬ (t.balance token).Refuses matchHash amount then
          (t.balance token).addOut matchHash amount
        else t.balance j := by
  simp only [reserveOutflow, balance_update_id, TokenBalance.Refuses]
  by_cases hdup : ((t.balance token).pendingOut.lookup matchHash).isSome
  · simp only [hdup, if_true, true_or, not_true, and_false, if_false, balance_update_id]
  · by_cases hlow : (t.balance token).projected < amount
    · simp only [hdup, hlow, if_true, or_true, not_true, and_false, if_false,
        balance_update_id, Bool.false_eq_true]
    · simp only [hdup, hlow, Bool.false_eq_true, or_self, not_false_eq_true, and_true,
        if_false, balance_update, id]
      split_ifs <;> rfl

/-- Tracking an inflow succeeds unless the match already has one on this token. -/
theorem trackInflow_fst (t : EscrowTracker) (token matchHash : String) (amount : UInt64) :
    (t.trackInflow token matchHash amount).1 = (t.balance token).trackResult matchHash := by
  simp only [trackInflow, balance_update_id, TokenBalance.trackResult]
  split_ifs <;> rfl

/-- An inflow that is tracked enters the inflows of its token. -/
theorem balance_trackInflow (t : EscrowTracker) (token matchHash : String)
    (amount : UInt64) (j : String) :
    (t.trackInflow token matchHash amount).2.balance j
      = if j = token ∧ ¬ ((t.balance token).pendingIn.lookup matchHash).isSome then
          (t.balance token).addIn matchHash amount
        else t.balance j := by
  simp only [trackInflow, balance_update_id]
  split_ifs <;> simp_all

/-- Tracking an inflow touches nothing but inflows. -/
theorem frame_trackInflow (t : EscrowTracker) (token matchHash : String)
    (amount : UInt64) (j : String) :
    ((t.trackInflow token matchHash amount).2.balance j).confirmed = (t.balance j).confirmed ∧
      ((t.trackInflow token matchHash amount).2.balance j).pendingOut
        = (t.balance j).pendingOut ∧
      ((t.trackInflow token matchHash amount).2.balance j).earmarked
        = (t.balance j).earmarked := by
  rw [balance_trackInflow]
  split_ifs with h
  · obtain ⟨rfl, -⟩ := h; exact ⟨rfl, rfl, rfl⟩
  · exact ⟨rfl, rfl, rfl⟩

/-! ### A whole match -/

section

variable {t : EscrowTracker} {matchHash : String} {flow : EscrowFlow}

/-- A match whose outflow is refused fails and changes no balance. -/
theorem applyFlow_of_refuses
    (h : (t.balance flow.outToken).Refuses matchHash flow.outAmount) :
    (∃ e, (t.applyFlow matchHash flow).1 = .error e) ∧
      ∀ j, (t.applyFlow matchHash flow).2.balance j = t.balance j := by
  have hfst := t.reserveOutflow_fst flow.outToken matchHash flow.outAmount
  have hbal := t.balance_reserveOutflow flow.outToken matchHash flow.outAmount
  obtain ⟨e, he⟩ := TokenBalance.reserveResult_of_refuses h
  rw [he] at hfst
  unfold applyFlow
  generalize t.reserveOutflow flow.outToken matchHash flow.outAmount = r at hfst hbal
  obtain ⟨_, t₁⟩ := r
  subst hfst
  refine ⟨⟨e, rfl⟩, fun j => ?_⟩
  rw [andThen, hbal j, if_neg (fun hj => hj.2 h)]

/-- A match whose outflow is granted goes on to track its inflow. -/
theorem applyFlow_of_not_refuses
    (h : ¬ (t.balance flow.outToken).Refuses matchHash flow.outAmount) :
    ∃ t₁ : EscrowTracker, (∀ j, t₁.balance j = if j = flow.outToken then
        (t.balance flow.outToken).addOut matchHash flow.outAmount else t.balance j) ∧
      t.applyFlow matchHash flow = t₁.trackInflow flow.inToken matchHash flow.inAmount := by
  have hfst := t.reserveOutflow_fst flow.outToken matchHash flow.outAmount
  have hbal := t.balance_reserveOutflow flow.outToken matchHash flow.outAmount
  rw [TokenBalance.reserveResult_of_not_refuses h] at hfst
  unfold applyFlow
  generalize t.reserveOutflow flow.outToken matchHash flow.outAmount = r at hfst hbal
  obtain ⟨_, t₁⟩ := r
  subst hfst
  refine ⟨t₁, fun j => ?_, rfl⟩
  rw [hbal j]
  simp only [h, not_false_eq_true, and_true]

/-- Reserving an outflow leaves the inflows alone. -/
theorem pendingIn_of_addOut {t₁ : EscrowTracker} (h : ∀ j, t₁.balance j = if j = flow.outToken then
      (t.balance flow.outToken).addOut matchHash flow.outAmount else t.balance j) (j : String) :
    (t₁.balance j).pendingIn = (t.balance j).pendingIn := by
  rw [h j]
  split_ifs with hj
  · rw [hj, TokenBalance.addOut_pendingIn]
  · rfl

variable (t matchHash flow)

/-- A match adds at most one outflow: its own, on the token that it pays in. -/
theorem pendingOut_applyFlow (j : String) :
    ((t.applyFlow matchHash flow).2.balance j).pendingOut
      = if j = flow.outToken ∧ ¬ (t.balance flow.outToken).Refuses matchHash flow.outAmount
        then (t.balance j).pendingOut.insert matchHash flow.outAmount
        else (t.balance j).pendingOut := by
  by_cases h : (t.balance flow.outToken).Refuses matchHash flow.outAmount
  · rw [(applyFlow_of_refuses h).2 j, if_neg (fun hj => hj.2 h)]
  · obtain ⟨t₁, ht₁, heq⟩ := applyFlow_of_not_refuses h
    rw [heq, (frame_trackInflow t₁ _ _ _ j).2.1, ht₁ j]
    by_cases hj : j = flow.outToken
    · subst hj
      rw [if_pos rfl, if_pos ⟨rfl, h⟩, TokenBalance.addOut_pendingOut]
    · rw [if_neg hj, if_neg (fun h' => hj h'.1)]

/-- A match changes neither the confirmed balances nor the earmarks. -/
theorem frame_applyFlow (j : String) :
    ((t.applyFlow matchHash flow).2.balance j).confirmed = (t.balance j).confirmed ∧
      ((t.applyFlow matchHash flow).2.balance j).earmarked = (t.balance j).earmarked := by
  by_cases h : (t.balance flow.outToken).Refuses matchHash flow.outAmount
  · rw [(applyFlow_of_refuses h).2 j]
    exact ⟨rfl, rfl⟩
  · obtain ⟨t₁, ht₁, heq⟩ := applyFlow_of_not_refuses h
    obtain ⟨hconf, -, hear⟩ := frame_trackInflow t₁ flow.inToken matchHash flow.inAmount j
    rw [heq, hconf, hear, ht₁ j]
    split_ifs with hj
    · subst hj; exact ⟨rfl, rfl⟩
    · exact ⟨rfl, rfl⟩

/-- A match adds at most one inflow: its own, on the token that it is paid in. -/
theorem pendingIn_applyFlow {j h : String} {a : UInt64}
    (hin : ((t.applyFlow matchHash flow).2.balance j).pendingIn.lookup h = some a) :
    (t.balance j).pendingIn.lookup h = some a ∨
      h = matchHash ∧ j = flow.inToken ∧ a = flow.inAmount := by
  by_cases hr : (t.balance flow.outToken).Refuses matchHash flow.outAmount
  · rw [(applyFlow_of_refuses hr).2 j] at hin
    exact .inl hin
  · obtain ⟨t₁, ht₁, heq⟩ := applyFlow_of_not_refuses hr
    have hsame := pendingIn_of_addOut ht₁
    rw [heq, balance_trackInflow] at hin
    split_ifs at hin with hj
    · rw [TokenBalance.addIn_pendingIn] at hin
      by_cases hh : h = matchHash
      · subst hh
        rw [AList.lookup_insert] at hin
        exact .inr ⟨rfl, hj.1, (Option.some.inj hin).symm⟩
      · rw [AList.lookup_insert_ne hh, hsame, ← hj.1] at hin
        exact .inl hin
    · rw [hsame] at hin
      exact .inl hin

/-- A match that succeeds was granted its outflow. -/
theorem not_refuses_of_applyFlow (h : (t.applyFlow matchHash flow).1 = .ok ()) :
    ¬ (t.balance flow.outToken).Refuses matchHash flow.outAmount := by
  intro hr
  obtain ⟨⟨e, he⟩, -⟩ := applyFlow_of_refuses hr
  rw [he] at h
  cases h

end

end EscrowTracker
