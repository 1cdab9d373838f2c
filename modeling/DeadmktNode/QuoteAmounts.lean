/-
# Quote amounts

A match books its quote amount, the fill times the price over a power of ten that the decimals
of the two tokens give.  The amount is exact as long as the exponent is not negative, the power
has 128 bits and the quotient 64; elsewhere the code divides by zero, or books a reduced amount
if nothing refuses the match (`quote_exact_iff`).
-/
import DeadmktNode.TrackerRuns
import Mathlib.Algebra.Order.Floor.Semifield
import Mathlib.Data.Rat.Floor

/-! ## The exact amount -/

/-- The quote amount of a fill at a price, for any exponent. -/
def exactQuote (fillQuantity price : UInt64) (baseDecimals quoteDecimals : UInt8) : ℕ :=
  ⌊((fillQuantity.toNat * price.toNat : ℕ) : ℚ)
    / (10 : ℚ) ^ ((baseDecimals.toNat : ℤ) + 8 - quoteDecimals.toNat)⌋₊

/-- The exponent is not negative, and the power of ten is not zero in 128 bits. -/
def DivisorFits (baseDecimals quoteDecimals : UInt8) : Prop :=
  quoteDecimals.toNat ≤ baseDecimals.toNat + 8 ∧
    baseDecimals.toNat + 8 - quoteDecimals.toNat < 128

/-- The quotient has 64 bits; where the power of ten has more than 128, the product is below
what is left of the power. -/
def QuoteFits (fillQuantity price : UInt64) (exponent : ℕ) : Prop :=
  if exponent ≤ 38 then fillQuantity.toNat * price.toNat < 2 ^ 64 * 10 ^ exponent
  else fillQuantity.toNat * price.toNat < 10 ^ exponent % 2 ^ 128

/-- With an exponent that is not negative the exact amount is a quotient of numbers. -/
theorem exactQuote_of_le {fillQuantity price : UInt64} {baseDecimals quoteDecimals : UInt8}
    (h : quoteDecimals.toNat ≤ baseDecimals.toNat + 8) :
    exactQuote fillQuantity price baseDecimals quoteDecimals
      = fillQuantity.toNat * price.toNat
        / 10 ^ (baseDecimals.toNat + 8 - quoteDecimals.toNat) := by
  have hexp : (baseDecimals.toNat : ℤ) + 8 - quoteDecimals.toNat
      = ((baseDecimals.toNat + 8 - quoteDecimals.toNat : ℕ) : ℤ) := by omega
  have hpow : (10 : ℚ) ^ (baseDecimals.toNat + 8 - quoteDecimals.toNat)
      = ((10 ^ (baseDecimals.toNat + 8 - quoteDecimals.toNat) : ℕ) : ℚ) := by
    rw [Nat.cast_pow, Nat.cast_ofNat]
  rw [exactQuote, hexp, zpow_natCast, hpow]
  exact Nat.floor_div_eq_div _ _

namespace EscrowTracker

/-! ## The divisor -/

/-- A power of ten below the 128th is not zero in 128 bits: it has too few factors two. -/
theorem ten_pow_mod_ne_zero {exponent : ℕ} (h : exponent < 128) : 10 ^ exponent % 2 ^ 128 ≠ 0 := by
  intro hzero
  have hdvd : 2 ^ 128 ∣ 2 ^ exponent * 5 ^ exponent := by
    rw [← Nat.mul_pow]
    exact Nat.dvd_of_mod_eq_zero hzero
  have hcoprime : Nat.Coprime (2 ^ 128) (5 ^ exponent) :=
    Nat.Coprime.pow _ _ (by decide)
  have hle : 128 ≤ exponent :=
    (Nat.pow_dvd_pow_iff_le_right (by decide)).mp (hcoprime.dvd_of_dvd_mul_right hdvd)
  omega

/-- The match panics exactly if the divisor does not fit. -/
theorem priceDivisor_ne_zero_iff (baseDecimals quoteDecimals : UInt8) :
    priceDivisor baseDecimals quoteDecimals ≠ 0 ↔ DivisorFits baseDecimals quoteDecimals := by
  have hb := baseDecimals.toNat_lt
  have hq := quoteDecimals.toNat_lt
  unfold priceDivisor pow10 DivisorFits
  rw [toNat_scaleExponent]
  split_ifs with hlt
  · have hfits : quoteDecimals.toNat ≤ baseDecimals.toNat + 8 ∧
        baseDecimals.toNat + 8 - quoteDecimals.toNat < 128 := by omega
    exact iff_of_true (ten_pow_mod_ne_zero hlt) hfits
  · refine iff_of_false (fun h => h rfl) ?_
    omega

/-- What is left of a power of ten beyond 128 bits still has more than 64. -/
theorem two_pow_le_ten_pow_mod {exponent : ℕ} (hlow : 39 ≤ exponent) (hhigh : exponent < 128) :
    2 ^ 64 ≤ 10 ^ exponent % 2 ^ 128 := by
  have hall : ∀ e < 128, 39 ≤ e → 2 ^ 64 ≤ 10 ^ e % 2 ^ 128 := by decide +kernel
  exact hall exponent hhigh hlow

/-- The amount that the code computes is exact if and only if it fits. -/
theorem quoteAmount_eq_iff {fillQuantity price : UInt64} {exponent : ℕ} (h : exponent < 128) :
    (quoteAmount fillQuantity price (10 ^ exponent % 2 ^ 128)).toNat
        = fillQuantity.toNat * price.toNat / 10 ^ exponent ↔
      QuoteFits fillQuantity price exponent := by
  have hfill := fillQuantity.toNat_lt
  have hprice := price.toNat_lt
  have hproduct : fillQuantity.toNat * price.toNat < 2 ^ 64 * 2 ^ 64 :=
    Nat.mul_lt_mul'' hfill hprice
  unfold quoteAmount QuoteFits
  rw [UInt64.toNat_ofNat']
  generalize fillQuantity.toNat * price.toNat = product at hproduct ⊢
  split_ifs with hexact
  · -- the power is exact, and the quotient may have more than 64 bits
    have hpow : 10 ^ exponent % 2 ^ 128 = 10 ^ exponent := by
      refine Nat.mod_eq_of_lt (lt_of_le_of_lt (Nat.pow_le_pow_right (by norm_num) hexact) ?_)
      norm_num
    rw [hpow, Nat.mod_eq_iff_lt (by norm_num), Nat.div_lt_iff_lt_mul (Nat.pow_pos (by norm_num))]
  · -- the exact amount is zero, and the quotient has at most 64 bits
    have hlow : 39 ≤ exponent := by omega
    have hzero : product / 10 ^ exponent = 0 := by
      refine Nat.div_eq_of_lt (hproduct.trans_le ?_)
      exact le_trans (by norm_num) (Nat.pow_le_pow_right (by norm_num) hlow)
    have hleft := two_pow_le_ten_pow_mod hlow h
    have hquotient : product / (10 ^ exponent % 2 ^ 128) < 2 ^ 64 := by
      rw [Nat.div_lt_iff_lt_mul (lt_of_lt_of_le (by norm_num) hleft)]
      exact hproduct.trans_le (Nat.mul_le_mul_left _ hleft)
    rw [hzero, Nat.mod_eq_of_lt hquotient, Nat.div_eq_zero_iff]
    exact or_iff_right (ten_pow_mod_ne_zero h)

/-! ## The booked amount -/

/-- The quote amount that is booked under a match: a buy pays quote, a sell is paid in it. -/
def bookedQuote (t : EscrowTracker) (matchHash : String) (mySide : Side) (quoteToken : String) :
    Option UInt64 :=
  match mySide with
  | .buy => (t.balance quoteToken).pendingOut.lookup matchHash
  | .sell => (t.balance quoteToken).pendingIn.lookup matchHash

/-- The price that the quote amount is taken at. -/
def quotePrice (mySide : Side) (buyerPrice settlementPrice : UInt64) : UInt64 :=
  match mySide with
  | .buy => buyerPrice
  | .sell => settlementPrice

/-- Nothing refuses a quote amount before it is booked. -/
def BooksQuote (t : EscrowTracker) (matchHash : String) (mySide : Side)
    (baseToken quoteToken : String) (fillQuantity amount : UInt64) : Prop :=
  match mySide with
  | .buy => ¬ (t.balance quoteToken).Refuses matchHash amount
  | .sell => ¬ (t.balance baseToken).Refuses matchHash fillQuantity ∧
      (t.balance quoteToken).pendingIn.lookup matchHash = none

section

variable (t : EscrowTracker) (matchHash : String) (mySide : Side) (baseToken quoteToken : String)
  (fillQuantity buyerPrice settlementPrice : UInt64) (divisor : ℕ)

/-- What a match does to the booked quote amount. -/
theorem bookedQuote_applyFlow :
    let flow := matchFlow mySide baseToken quoteToken fillQuantity buyerPrice settlementPrice
      divisor
    let amount := quoteAmount fillQuantity (quotePrice mySide buyerPrice settlementPrice) divisor
    let result := t.applyFlow matchHash flow
    (t.BooksQuote matchHash mySide baseToken quoteToken fillQuantity amount ∧
        t.bookedQuote matchHash mySide quoteToken = none ∧
        result.2.bookedQuote matchHash mySide quoteToken = some amount) ∨
      (¬ t.BooksQuote matchHash mySide baseToken quoteToken fillQuantity amount ∧
        result.1 ≠ .ok () ∧
        result.2.bookedQuote matchHash mySide quoteToken
          = t.bookedQuote matchHash mySide quoteToken) := by
  intro flow amount result
  cases mySide with
  | buy =>
      -- a buy books the quote as its outflow
      have hout : result.2.bookedQuote matchHash .buy quoteToken = _ :=
        congrArg (AList.lookup matchHash) (pendingOut_applyFlow t matchHash flow quoteToken)
      by_cases hrefused : (t.balance quoteToken).Refuses matchHash amount
      · refine .inr ⟨not_not.mpr hrefused, fun hok => ?_, ?_⟩
        · exact not_refuses_of_applyFlow t matchHash flow hok hrefused
        · rw [hout, if_neg fun h => h.2 hrefused]
          rfl
      · refine .inl ⟨hrefused, ?_, ?_⟩
        · exact Option.not_isSome_iff_eq_none.mp fun hdup => hrefused (.inl hdup)
        · rw [hout, if_pos ⟨rfl, hrefused⟩, AList.lookup_insert]
          rfl
  | sell =>
      -- a sell books it as its inflow, once the outflow is granted
      by_cases hrefused : (t.balance flow.outToken).Refuses matchHash flow.outAmount
      · refine .inr ⟨fun h => h.1 hrefused, fun hok => ?_, ?_⟩
        · exact not_refuses_of_applyFlow t matchHash flow hok hrefused
        · show ((result.2.balance quoteToken).pendingIn).lookup matchHash = _
          rw [(applyFlow_of_refuses hrefused).2 quoteToken]
          rfl
      · cases hdup : (t.balance quoteToken).pendingIn.lookup matchHash with
        | some inflow =>
            -- the inflow is a duplicate: the old one stays
            have hhalf : t.HalfGranted matchHash flow :=
              ⟨hrefused, Option.isSome_iff_exists.mpr ⟨inflow, hdup⟩⟩
            obtain ⟨⟨e, he⟩, -, hsame⟩ := hhalf.applyFlow
            refine .inr ⟨fun h => ?_, fun hok => ?_, ?_⟩
            · rw [h.2] at hdup
              cases hdup
            · rw [show result.1 = .error e from he] at hok
              cases hok
            · exact congrArg (AList.lookup matchHash) (hsame quoteToken)
        | none =>
            obtain ⟨-, hbooked⟩ := booked_applyFlow hrefused hdup
            refine .inl ⟨⟨hrefused, hdup⟩, hdup, ?_⟩
            show (result.2.balance quoteToken).pendingIn.lookup matchHash = _
            rw [hbooked.pendingIn, if_pos (show quoteToken = flow.inToken from rfl),
              AList.lookup_insert]
            rfl

end

/-- A match does not panic, and if it succeeds or changes the booked quote amount, then this is
the exact amount. -/
def QuoteExact (t : EscrowTracker) (matchHash : String) (mySide : Side)
    (baseToken quoteToken : String) (fillQuantity buyerPrice settlementPrice : UInt64)
    (baseDecimals quoteDecimals : UInt8) : Prop :=
  ∃ result t', t.applyMatch matchHash mySide baseToken quoteToken fillQuantity buyerPrice
      settlementPrice baseDecimals quoteDecimals = some (result, t') ∧
    (result = .ok () ∨
        t'.bookedQuote matchHash mySide quoteToken
          ≠ t.bookedQuote matchHash mySide quoteToken →
      ∃ amount, t'.bookedQuote matchHash mySide quoteToken = some amount ∧
        amount.toNat = exactQuote fillQuantity (quotePrice mySide buyerPrice settlementPrice)
          baseDecimals quoteDecimals)

/-- A quote amount is exact or refused if and only if the divisor fits, and the amount fits or
is refused before it is booked. -/
theorem quote_exact_iff (t : EscrowTracker) (matchHash : String) (mySide : Side)
    (baseToken quoteToken : String) (fillQuantity buyerPrice settlementPrice : UInt64)
    (baseDecimals quoteDecimals : UInt8) :
    let price := quotePrice mySide buyerPrice settlementPrice
    let exponent := baseDecimals.toNat + 8 - quoteDecimals.toNat
    let amount := UInt64.ofNat
      (fillQuantity.toNat * price.toNat / (10 ^ exponent % 2 ^ 128))
    t.QuoteExact matchHash mySide baseToken quoteToken fillQuantity buyerPrice settlementPrice
        baseDecimals quoteDecimals ↔
      DivisorFits baseDecimals quoteDecimals ∧
        (QuoteFits fillQuantity price exponent ∨
          ¬ t.BooksQuote matchHash mySide baseToken quoteToken fillQuantity amount) := by
  intro price exponent amount
  unfold QuoteExact applyMatch
  dsimp only
  by_cases hfits : DivisorFits baseDecimals quoteDecimals
  · have hne := (priceDivisor_ne_zero_iff _ _).mpr hfits
    have hdivisor := priceDivisor_eq hne
    rw [if_neg hne, and_iff_right hfits, hdivisor]
    have hamount : amount.toNat = exactQuote fillQuantity price baseDecimals quoteDecimals ↔
        QuoteFits fillQuantity price exponent := by
      rw [exactQuote_of_le hfits.1]
      exact quoteAmount_eq_iff hfits.2
    have hbooking := t.bookedQuote_applyFlow matchHash mySide baseToken quoteToken fillQuantity
      buyerPrice settlementPrice (10 ^ exponent % 2 ^ 128)
    dsimp only at hbooking
    rw [show quoteAmount fillQuantity (quotePrice mySide buyerPrice settlementPrice)
      (10 ^ exponent % 2 ^ 128) = amount from rfl] at hbooking
    generalize t.applyFlow matchHash (matchFlow mySide baseToken quoteToken fillQuantity buyerPrice
      settlementPrice (10 ^ exponent % 2 ^ 128)) = r at hbooking ⊢
    obtain ⟨result, t'⟩ := r
    rcases hbooking with ⟨hbooks, hbefore, hafter⟩ | ⟨hbooks, hfails, hsame⟩
    · -- the amount is booked
      rw [or_iff_left (not_not.mpr hbooks), ← hamount]
      constructor
      · rintro ⟨_, _, hresult, hexact⟩
        obtain ⟨rfl, rfl⟩ := Prod.mk.inj (Option.some.inj hresult)
        obtain ⟨booked, hbooked, hvalue⟩ := hexact (.inr (by rw [hbefore, hafter]; exact nofun))
        obtain rfl := Option.some.inj (hafter.symm.trans hbooked)
        exact hvalue
      · intro hexact
        exact ⟨result, t', rfl, fun _ => ⟨amount, hafter, hexact⟩⟩
    · refine iff_of_true ⟨result, t', rfl, ?_⟩ (.inr hbooks)
      -- nothing is booked
      rintro (hok | hchanged)
      · exact absurd hok hfails
      · exact absurd hsame hchanged
  · rw [if_pos (not_not.mp fun hne => hfits ((priceDivisor_ne_zero_iff _ _).mp hne))]
    refine iff_of_false ?_ fun h => hfits h.1
    -- the divisor is zero: the call panics
    rintro ⟨result, t', hnone, -⟩
    cases hnone

/-- A match of tokens with 0 and 9 decimals panics; and an empty tracker books a buy that is
worth 2^64 units of quote, with nothing reserved for it. -/
theorem quote_panics_or_wraps :
    (¬ ∀ (t : EscrowTracker) (matchHash : String) (mySide : Side) (baseToken quoteToken : String)
        (fillQuantity buyerPrice settlementPrice : UInt64) (baseDecimals quoteDecimals : UInt8),
      (t.applyMatch matchHash mySide baseToken quoteToken fillQuantity buyerPrice settlementPrice
        baseDecimals quoteDecimals).isSome) ∧
    ¬ ∀ (t : EscrowTracker) (matchHash : String) (mySide : Side) (baseToken quoteToken : String)
        (fillQuantity buyerPrice settlementPrice : UInt64) (baseDecimals quoteDecimals : UInt8)
        (t' : EscrowTracker),
      t.applyMatch matchHash mySide baseToken quoteToken fillQuantity buyerPrice settlementPrice
        baseDecimals quoteDecimals = some (.ok (), t') →
      ∃ amount, t'.bookedQuote matchHash mySide quoteToken = some amount ∧
        amount.toNat = exactQuote fillQuantity (quotePrice mySide buyerPrice settlementPrice)
          baseDecimals quoteDecimals := by
  constructor
  · intro h
    have hpanics : new.applyMatch "m" .buy "EMM" "KAY" 1 1 1 0 9 = none := by decide +kernel
    have hsome := h new "m" .buy "EMM" "KAY" 1 1 1 0 9
    rw [hpanics] at hsome
    exact Bool.false_ne_true hsome
  · intro h
    obtain ⟨amount, -, hamount⟩ := h new "m" .buy "EMM" "KAY" 42949672960000 42949672960000
      42949672960000 5 5 _ rfl
    have hlt := amount.toNat_lt
    have hexact : exactQuote 42949672960000 42949672960000 5 5 = 2 ^ 64 :=
      (exactQuote_of_le (by decide)).trans (by decide +kernel)
    rw [show exactQuote 42949672960000 (quotePrice .buy 42949672960000 42949672960000) 5 5
      = 2 ^ 64 from hexact] at hamount
    omega

end EscrowTracker
