/-
# Balances in text

The chain counts base units; the node turns them into whole tokens in double precision, and text
carries these to the strategy and from one part of the start to the other.

* The tracker starts from what is left after the way there and back: from the balance on chain or
  from one unit less, and never from more (`seeded_tracker`).
* What the strategy is shown is read by the parser of its orders as the balance to the unit
  (`shown_balances_read_back`).
-/
import DeadmktNode.AbortStatus
import DeadmktNode.DecimalText
import DeadmktNode.EventDecoding
import DeadmktNode.FloatScaling

/-! ## Numbers with decimals -/

/-- Digits behind zeros, at least `width` of them. -/
def padZeros (width : ℕ) (digits : List Char) : List Char :=
  List.replicate (width - digits.length) '0' ++ digits

/-- A number of units with a point before the last `width` digits, and no point without these. -/
def fixedText (units width : ℕ) : String :=
  let whole := Nat.toDigits 10 (units / 10 ^ width)
  if width = 0 then String.ofList whole
  else String.ofList
    (whole ++ '.' :: padZeros width (Nat.toDigits 10 (units % 10 ^ width)))

/-- The two readings of a digit agree. -/
theorem digitValue_eq_digitVal {c : Char} (h : c.isDigit = true) : digitValue c = digitVal c := by
  rw [digitValue, digitVal, if_pos h]
  rfl

/-- Digits are read back. -/
theorem digitsValue_toDigits (n : ℕ) : digitsValue (Nat.toDigits 10 n) = n := by
  obtain ⟨-, -, hvalue⟩ := writes_toDigits (by decide : 1 < 10) (by decide) n
  refine Eq.trans ?_ hvalue
  apply List.foldl_ext
  intro acc c hc
  rw [← digitValue_eq_digitVal (Nat.isDigit_of_mem_toDigits (by decide) (by decide) hc)]
  rfl

/-- Padding adds digits. -/
theorem isDigit_of_mem_padZeros {width n : ℕ} {c : Char}
    (h : c ∈ padZeros width (Nat.toDigits 10 n)) : c.isDigit = true := by
  rcases List.mem_append.mp h with hzero | hdigit
  · rw [List.eq_of_mem_replicate hzero]
    rfl
  · exact Nat.isDigit_of_mem_toDigits (by decide) (by decide) hdigit

/-- Padding does not change the number. -/
theorem digitsValue_padZeros (width n : ℕ) :
    digitsValue (padZeros width (Nat.toDigits 10 n)) = n := by
  rw [padZeros, digitsValue_eq, numeral_replicate_append (by rfl), ← digitsValue_eq,
    digitsValue_toDigits]

/-- The places of a fraction. -/
theorem length_padZeros {width n : ℕ} (hwidth : 0 < width) (h : n < 10 ^ width) :
    (padZeros width (Nat.toDigits 10 n)).length = width := by
  have hlength := (Nat.length_toDigits_le_iff (by decide : 1 < 10) hwidth).mpr h
  rw [padZeros, List.length_append, List.length_replicate]
  omega

/-- A digit is no white space. -/
theorem isWhitespace_of_isDigit {c : Char} (h : c.isDigit = true) : isWhitespace c = false := by
  simp only [Char.isDigit, Bool.and_eq_true, decide_eq_true_eq] at h
  have hlow : 48 ≤ c.toNat := UInt32.le_iff_toNat_le.mp h.1
  have hhigh : c.toNat ≤ 57 := UInt32.le_iff_toNat_le.mp h.2
  simp only [isWhitespace, Bool.or_eq_false_iff, Bool.and_eq_false_iff, decide_eq_false_iff_not]
  omega

/-- Digits, and digits behind a point, have no white space to be cut off. -/
theorem trimChars_decimal {int frac : List Char} (hint : ∀ c ∈ int, c.isDigit = true)
    (hfrac : ∀ c ∈ frac, c.isDigit = true) :
    trimChars int = int ∧ trimChars (int ++ '.' :: frac) = int ++ '.' :: frac := by
  constructor
  · exact AbortCode.trimChars_of_not_whitespace fun c hc => isWhitespace_of_isDigit (hint c hc)
  · apply AbortCode.trimChars_of_not_whitespace
    intro c hc
    rcases List.mem_append.mp hc with hc | hc
    · exact isWhitespace_of_isDigit (hint c hc)
    · rcases List.mem_cons.mp hc with rfl | hc
      · decide
      · exact isWhitespace_of_isDigit (hfrac c hc)

/-- The factor of the parser is the power of ten, as long as this fits. -/
theorem placesFactor_of_le {d : UInt8} (h : d.toNat ≤ 38) : placesFactor d = 10 ^ d.toNat := by
  rw [placesFactor_eq, if_pos (by omega)]
  apply Nat.mod_eq_of_lt
  exact lt_of_le_of_lt (Nat.pow_le_pow_right (by decide) h) (by norm_num)

/-- **Round trip.**  A number of units is read back with as many decimals as it was written
with. -/
theorem parse_fixedText (n : UInt64) {d : UInt8} (hd : d.toNat ≤ 38) :
    parseDecimalToFixed (fixedText n.toNat d.toNat) d = .ok n := by
  have hint : ∀ c ∈ Nat.toDigits 10 (n.toNat / 10 ^ d.toNat), c.isDigit = true :=
    fun c hc => Nat.isDigit_of_mem_toDigits (by decide) (by decide) hc
  have hlarge : n.toNat / 10 ^ d.toNat < 2 ^ 128 := by
    have hle := Nat.div_le_self n.toNat (10 ^ d.toNat)
    have hn := n.toNat_lt
    omega
  have hne : Nat.toDigits 10 (n.toNat / 10 ^ d.toNat) ≠ [] := Nat.toDigits_ne_nil
  rw [parseDecimalToFixed_eq_ok_iff, placesFactor_of_le hd]
  unfold fixedText
  dsimp only
  -- without decimals the text has no point
  by_cases hzero : d.toNat = 0
  · rw [if_pos hzero, String.toList_ofList]
    refine ⟨Nat.toDigits 10 (n.toNat / 10 ^ d.toNat), [], ⟨hne, hint, List.forall_mem_nil _, ?_⟩,
      ?_, .inl rfl, ?_⟩
    · exact .inl ⟨(trimChars_decimal hint (List.forall_mem_nil _)).1, rfl⟩
    · rwa [digitsValue_toDigits]
    · rw [digitsValue_toDigits, hzero, digitsValue_fitPlaces_zero]
      simp
  · rw [if_neg hzero, String.toList_ofList]
    have hrest : n.toNat % 10 ^ d.toNat < 10 ^ d.toNat := Nat.mod_lt _ (by positivity)
    -- the fraction is padded to exactly as many places as the token has
    have hlength := length_padZeros (Nat.pos_of_ne_zero hzero) hrest
    generalize hfrac : padZeros d.toNat (Nat.toDigits 10 (n.toNat % 10 ^ d.toNat)) = frac at hlength
    have hdigits : ∀ c ∈ frac, c.isDigit = true := by
      intro c hc
      rw [← hfrac] at hc
      exact isDigit_of_mem_padZeros hc
    have hvalue : digitsValue frac = n.toNat % 10 ^ d.toNat := by
      rw [← hfrac, digitsValue_padZeros]
    have hfit : fitPlaces '0' d.toNat frac = frac := by
      rw [fitPlaces, ← hlength]
      simp
    refine ⟨Nat.toDigits 10 (n.toNat / 10 ^ d.toNat), frac, ⟨hne, hint, hdigits, ?_⟩, ?_,
      .inr hzero, ?_⟩
    · exact .inr (trimChars_decimal hint hdigits).2
    · rwa [digitsValue_toDigits]
    · rw [digitsValue_toDigits, hfit, hvalue]
      exact Nat.div_add_mod' n.toNat (10 ^ d.toNat)

/-! ## Whole tokens in double precision -/

/-- `10u64.pow(decimals) as f64` -/
def divisor (decimals : UInt8) : ℚ := roundBits 53 ((10 ^ decimals.toNat % 2 ^ 64 : ℕ) : ℚ)

/-- `10f64.powi(decimals)`, which is exact up to 22 decimals. -/
def factor (decimals : UInt8) : ℚ := (10 ^ decimals.toNat : ℕ)

/-- Up to 19 decimals the two powers agree. -/
theorem divisor_eq_factor {decimals : UInt8} (h : decimals.toNat < 20) :
    divisor decimals = factor decimals := by
  have hpow : ∀ d < 20, roundBits 53 ((10 ^ d % 2 ^ 64 : ℕ) : ℚ) = (10 ^ d : ℕ) := by
    decide +kernel
  exact hpow decimals.toNat h

/-- Base units as whole tokens: the count and the quotient in double precision. -/
def toWhole (raw : UInt64) (units : ℚ) : ℚ := roundBits 53 (roundBits 53 (raw.toNat : ℚ) / units)

/-- Below the bound, the whole amount is the rounded quotient. -/
theorem toWhole_eq {raw : UInt64} (h : 2 * (raw.toNat + 1) ≤ 2 ^ 53) (decimals : UInt8) :
    toWhole raw (factor decimals)
      = roundBits 53 ((raw.toNat : ℚ) / (10 ^ decimals.toNat : ℕ)) := by
  rw [toWhole, roundBits_natCast (by omega), factor]

/-! ## The balances at the start -/

/-- The first element of the result of a view. -/
def JsonValue.first : JsonValue → Option JsonValue
  | .array (v :: _) => some v
  | _ => none

/-- What the views of the chain answer during the start, one call after another; none if a call
fails.  A market that is listed twice is asked for twice, and so is its token. -/
structure StartViews where
  /-- The pair of the market at a position. -/
  getMarketPair : ℕ → Option JsonValue
  /-- The balance of the first or the second token that is asked for at a position. -/
  getBalance : ℕ → ℕ → Option JsonValue

/-- A balance, as a string or as a number; 0 if the result is empty. -/
def readBalance (result : JsonValue) : Option UInt64 :=
  match result.first with
  | some (.string s) => fromStrRadix 10 s.toList
  | some (.number text) => fromStrRadix 10 text.toList
  | some _ => none
  | none => some 0

/-- The two tokens of a market with the addresses of their metadata; not those without one. -/
def marketTokens (market : String) (pairResult : JsonValue) : List (String × String) :=
  let pairObj := pairResult.first.getD pairResult
  match (market.toList.splitOn '/').map String.ofList with
  | [baseSym, quoteSym] =>
      [(baseSym, pairObj.strField "base_metadata"),
        (quoteSym, pairObj.strField "quote_metadata")].filter fun p => !p.2.isEmpty
  | _ => []

/-- The balances of the tokens of the markets, in the order of the calls. -/
def balanceAnswers (views : StartViews) (markets : List String) : List (String × UInt64) :=
  markets.zipIdx.flatMap fun (market, i) =>
    match views.getMarketPair i with
    | none => []
    | some pairResult => (marketTokens market pairResult).zipIdx.filterMap fun (p, j) =>
        ((views.getBalance i j).bind readBalance).map (p.1, ·)

/-- The balances as whole tokens.  A double that is written is read back as itself, so the text
between the two is left out. -/
def fetchEscrowBalances (views : StartViews) (markets : List String)
    (tokenDecimals : HashMap String UInt8) : HashMap String ℚ :=
  (balanceAnswers views markets).foldl
    (fun balances p => balances.insert p.1 (toWhole p.2 (divisor (decimalsOf tokenDecimals p.1)))) ∅

/-- Whole tokens as base units: the product in double precision, cut and saturated. -/
def toRaw (human : ℚ) (decimals : UInt8) : UInt64 :=
  UInt64.ofNat
    (min ⌊roundBits 53 (human * factor decimals)⌋.toNat (UInt64.size - 1))

/-- The tracker at the start. -/
def seedTracker (balances : HashMap String ℚ) (tokenDecimals : HashMap String UInt8) :
    EscrowTracker :=
  balances.entries.foldl
    (fun t e => t.setConfirmed e.1 (toRaw e.2 (decimalsOf tokenDecimals e.1))) .new

/-- The last answer about a token. -/
def lastAnswer (answers : List (String × UInt64)) (token : String) : Option UInt64 :=
  answers.reverse.lookup token

/-- There and back, a balance comes out as itself or one unit less. -/
theorem toRaw_toWhole {raw : UInt64} (h : 2 * (raw.toNat + 1) ≤ 2 ^ 53) (decimals : UInt8) :
    toRaw (toWhole raw (factor decimals)) decimals = raw ∨
      (toRaw (toWhole raw (factor decimals)) decimals).toNat + 1 = raw.toNat := by
  have hpow : 0 < 10 ^ decimals.toNat := by positivity
  have hfloor := floor_scaled_up (K := ℚ) h hpow
  rw [toRaw, toWhole_eq h, factor]
  generalize ⌊roundBits 53 (roundBits 53 ((raw.toNat : ℚ) / (10 ^ decimals.toNat : ℕ))
    * (10 ^ decimals.toNat : ℕ))⌋ = units at hfloor ⊢
  have hlt := raw.toNat_lt
  have hsize : UInt64.size = 2 ^ 64 := rfl
  rw [show min units.toNat (UInt64.size - 1) = units.toNat by omega]
  rcases Nat.eq_zero_or_pos raw.toNat with hzero | hpos
  · left
    rw [show units.toNat = raw.toNat by omega, UInt64.ofNat_toNat]
  · rcases hfloor with hsame | hless
    · left
      rw [hsame, Int.toNat_natCast, UInt64.ofNat_toNat]
    · right
      rw [UInt64.toNat_ofNat_of_lt' (by omega)]
      omega

/-- Of the entries of one token, the last one stays. -/
theorem lookup_fold_insert {ν : Type*} (f : String × UInt64 → ν) (token : String)
    (answers : List (String × UInt64)) :
    (answers.foldl (fun (m : HashMap String ν) p => m.insert p.1 (f p)) ∅).lookup token
      = (lastAnswer answers token).map fun raw => f (token, raw) := by
  induction answers using List.reverseRecOn with
  | nil => rfl
  | append_singleton answers p ih =>
      rw [List.foldl_append, List.foldl_cons, List.foldl_nil, AList.lookup_insert_ite, ih,
        lastAnswer, lastAnswer, List.reverse_append, List.reverse_singleton,
        List.singleton_append]
      obtain ⟨name, raw⟩ := p
      by_cases hname : token = name
      · subst hname
        rw [if_pos rfl, List.lookup_cons_self, Option.map_some]
      · rw [if_neg hname, List.lookup_cons, beq_false_of_ne hname]

/-- Setting the balances of entries with different tokens. -/
theorem balance_foldl_setConfirmed (f : (_ : String) × ℚ → UInt64) (token : String)
    {entries : List ((_ : String) × ℚ)} (hnodup : entries.NodupKeys) (t : EscrowTracker) :
    (entries.foldl (fun t e => t.setConfirmed e.1 (f e)) t).balance token
      = match entries.dlookup token with
        | none => t.balance token
        | some human => { t.balance token with confirmed := f ⟨token, human⟩ } := by
  induction entries generalizing t with
  | nil => rfl
  | cons e entries ih =>
      obtain ⟨name, human⟩ := e
      obtain ⟨hnew, hrest⟩ := List.nodupKeys_cons.mp hnodup
      rw [List.foldl_cons, ih hrest]
      by_cases hname : token = name
      · subst hname
        rw [List.dlookup_eq_none.mpr hnew, List.dlookup_cons_eq]
        dsimp only
        rw [EscrowTracker.setConfirmed, EscrowTracker.balance_update, if_pos rfl]
      · rw [List.dlookup_cons_ne _ _ hname, EscrowTracker.setConfirmed,
          EscrowTracker.balance_update, if_neg hname]

/-- **There and back.**  At the start, the tracker holds for every token the balance of the last
answer, or one unit less, and nothing where there was no answer. -/
theorem seeded_tracker (views : StartViews) (markets : List String)
    (tokenDecimals : HashMap String UInt8) (token : String)
    (hdecimals : (decimalsOf tokenDecimals token).toNat < 20)
    (hfits : ∀ raw, (token, raw) ∈ balanceAnswers views markets → 2 * (raw.toNat + 1) ≤ 2 ^ 53) :
    ∃ confirmed : UInt64,
      (seedTracker (fetchEscrowBalances views markets tokenDecimals) tokenDecimals).balance token
        = { TokenBalance.empty with confirmed := confirmed } ∧
      match lastAnswer (balanceAnswers views markets) token with
      | none => confirmed = 0
      | some raw => confirmed = raw ∨ confirmed.toNat + 1 = raw.toNat := by
  have hentry := balance_foldl_setConfirmed
    (fun e => toRaw e.2 (decimalsOf tokenDecimals e.1)) token
    (fetchEscrowBalances views markets tokenDecimals).nodupKeys .new
  have hlookup := lookup_fold_insert
    (fun p => toWhole p.2 (divisor (decimalsOf tokenDecimals p.1))) token
    (balanceAnswers views markets)
  change List.dlookup token (fetchEscrowBalances views markets tokenDecimals).entries = _ at hlookup
  rw [seedTracker, hentry, hlookup]
  cases hlast : lastAnswer (balanceAnswers views markets) token with
  | none => exact ⟨0, rfl, rfl⟩
  | some raw =>
      have hmem : (token, raw) ∈ balanceAnswers views markets := by
        obtain ⟨before, after, hsplit, -⟩ := List.lookup_eq_some_iff.mp hlast
        rw [← List.mem_reverse, hsplit]
        exact List.mem_append_right _ List.mem_cons_self
      refine ⟨_, rfl, ?_⟩
      dsimp only
      rw [divisor_eq_factor hdecimals]
      exact toRaw_toWhole (hfits raw hmem) _

/-! ## What the strategy is shown -/

/-- A balance as text, to the nearest base unit. -/
def shownBalance (raw : UInt64) (decimals : UInt8) : String :=
  fixedText (roundEven (toWhole raw (factor decimals) * factor decimals)).toNat decimals.toNat

/-- The projected and the confirmed balances of the tokens of the tracker. -/
def buildEscrowViews (t : EscrowTracker) (tokenDecimals : HashMap String UInt8) :
    HashMap String String × HashMap String String :=
  t.trackedTokens.foldl
    (fun views token =>
      let dec := decimalsOf tokenDecimals token
      let projected := views.1.insert token (shownBalance (t.projected token) dec)
      match t.balances.lookup token with
      | some bal => (projected, views.2.insert token (shownBalance bal.confirmed dec))
      | none => (projected, views.2))
    (∅, ∅)

/-- The text of a balance is read back. -/
theorem parse_shownBalance {raw : UInt64} {decimals : UInt8} (hdecimals : decimals.toNat ≤ 22)
    (hfits : 2 * (raw.toNat + 1) ≤ 2 ^ 53) :
    parseDecimalToFixed (shownBalance raw decimals) decimals = .ok raw := by
  have hunits : roundEven (toWhole raw (factor decimals) * factor decimals) = raw.toNat := by
    rw [toWhole_eq hfits, factor]
    exact roundEven_scaled hfits (by positivity)
  rw [shownBalance, hunits, Int.toNat_natCast]
  exact parse_fixedText raw (by omega)

/-- The two maps are filled apart from each other. -/
theorem buildEscrowViews_eq (t : EscrowTracker) (tokenDecimals : HashMap String UInt8) :
    buildEscrowViews t tokenDecimals
      = (t.trackedTokens.foldl (fun m token => m.insert token
            (shownBalance (t.projected token) (decimalsOf tokenDecimals token))) ∅,
          t.trackedTokens.foldl (fun m token => m.insert token
            (shownBalance (t.balance token).confirmed (decimalsOf tokenDecimals token))) ∅) := by
  have hsplit : ∀ (tokens : List String) (views : HashMap String String × HashMap String String),
      (∀ token ∈ tokens, token ∈ t.trackedTokens) →
      tokens.foldl (fun views token =>
        let dec := decimalsOf tokenDecimals token
        let projected := views.1.insert token (shownBalance (t.projected token) dec)
        match t.balances.lookup token with
        | some bal => (projected, views.2.insert token (shownBalance bal.confirmed dec))
        | none => (projected, views.2)) views
      = (tokens.foldl (fun m token => m.insert token
            (shownBalance (t.projected token) (decimalsOf tokenDecimals token))) views.1,
          tokens.foldl (fun m token => m.insert token
            (shownBalance (t.balance token).confirmed (decimalsOf tokenDecimals token)))
            views.2) := by
    intro tokens
    induction tokens with
    | nil => exact fun views _ => rfl
    | cons token tokens ih =>
        intro views htracked
        obtain ⟨bal, hbal⟩ : ∃ bal, t.balances.lookup token = some bal :=
          Option.isSome_iff_exists.mp (AList.lookup_isSome.mpr (htracked token List.mem_cons_self))
        have hread : t.balance token = bal := by rw [EscrowTracker.balance, hbal, Option.getD_some]
        rw [List.foldl_cons, List.foldl_cons, List.foldl_cons, hread]
        dsimp only
        rw [hbal]
        exact ih _ fun token h => htracked token (List.mem_cons_of_mem _ h)
  exact hsplit _ _ fun _ h => h

/-- **What is shown is what there is.**  Read with the decimals of the token, as the quantity of
an order is, the two balances that the strategy is shown are those of the tracker, for the tokens
that it tracks and no others. -/
theorem shown_balances_read_back (t : EscrowTracker) (tokenDecimals : HashMap String UInt8)
    (token : String) (hdecimals : (decimalsOf tokenDecimals token).toNat ≤ 22)
    (hprojected : 2 * ((t.projected token).toNat + 1) ≤ 2 ^ 53)
    (hconfirmed : 2 * ((t.balance token).confirmed.toNat + 1) ≤ 2 ^ 53) :
    let read := (parseDecimalToFixed · (decimalsOf tokenDecimals token))
    let (projected, confirmed) := buildEscrowViews t tokenDecimals
    (projected.lookup token).map read
        = (if token ∈ t.trackedTokens then some (.ok (t.projected token)) else none) ∧
      (confirmed.lookup token).map read
        = (if token ∈ t.trackedTokens then some (.ok (t.balance token).confirmed) else none) := by
  rw [buildEscrowViews_eq]
  dsimp only
  rw [AList.lookup_foldl_insert, AList.lookup_foldl_insert, AList.lookup_empty]
  split_ifs with htracked
  · rw [Option.map_some, Option.map_some, parse_shownBalance hdecimals hprojected,
      parse_shownBalance hdecimals hconfirmed]
    exact ⟨rfl, rfl⟩
  · exact ⟨rfl, rfl⟩

/-! ## One market -/

section sample

/-- A market with metadata of both tokens, and balances as a string and as a number. -/
def sampleViews : StartViews where
  getMarketPair _ :=
    some (.array [.object [("base_metadata", .string "0xa"), ("quote_metadata", .string "0xb")]])
  getBalance _ j :=
    if j = 0 then some (.array [.string "7"]) else some (.array [.number "29"])

def sampleDecimals : HashMap String UInt8 := AList.insert "USD" 2 ∅

theorem balanceAnswers_sample :
    balanceAnswers sampleViews ["TRIP/USD"] = [("TRIP", 7), ("USD", 29)] := by
  decide +kernel

/-- Seven units of a token with five decimals are seeded as six. -/
theorem seeded_one_less :
    lastAnswer (balanceAnswers sampleViews ["TRIP/USD"]) "TRIP" = some 7 ∧
      toRaw (toWhole 7 (divisor 5)) 5 = 6 ∧
      ∃ confirmed : UInt64,
        (seedTracker (fetchEscrowBalances sampleViews ["TRIP/USD"] sampleDecimals)
            sampleDecimals).balance "TRIP"
          = { TokenBalance.empty with confirmed := confirmed } ∧
        match lastAnswer (balanceAnswers sampleViews ["TRIP/USD"]) "TRIP" with
        | none => confirmed = 0
        | some raw => confirmed = raw ∨ confirmed.toNat + 1 = raw.toNat :=
  ⟨by decide +kernel, by decide +kernel,
    seeded_tracker sampleViews ["TRIP/USD"] sampleDecimals "TRIP" (by decide) fun raw hmem => by
      rw [balanceAnswers_sample] at hmem
      obtain rfl : raw = 7 := by simpa using hmem
      decide⟩

/-- The tracker of a token with 29 units and two decimals. -/
def sampleTracker : EscrowTracker := EscrowTracker.new.setConfirmed "USD" 29

theorem shown_cents :
    let read := (parseDecimalToFixed · (decimalsOf sampleDecimals "USD"))
    let (projected, confirmed) := buildEscrowViews sampleTracker sampleDecimals
    (projected.lookup "USD").map read
        = (if "USD" ∈ sampleTracker.trackedTokens then
            some (.ok (sampleTracker.projected "USD")) else none) ∧
      (confirmed.lookup "USD").map read
        = (if "USD" ∈ sampleTracker.trackedTokens then
            some (.ok (sampleTracker.balance "USD").confirmed) else none) :=
  shown_balances_read_back sampleTracker sampleDecimals "USD" (by decide) (by decide) (by decide)

end sample
