/-
# The grammar of decimal text

A decimal text is one or more digits, which a point and any digits may follow; with `d` places
it stands for the floor of its value times `10 ^ d`.  The parser reads exactly this grammar,
except with no places, where it refuses every fraction, and with 128 places or more, where the
wrapping power of ten is zero and the digits before the point are lost
(`parseDecimalToFixed_meets_iff`).
-/
import DeadmktNode.FallibleState
import DeadmktNode.Numerals
import DeadmktNode.QuoteAmounts
import DeadmktNode.StrategyConvert
import Mathlib.Data.List.TakeWhile

/-! ## The grammar -/

/-- The text is `int`, or `int` and `frac` with a point between them. -/
structure IsDecimal (cs int frac : List Char) : Prop where
  nonempty : int ≠ []
  intDigits : ∀ c ∈ int, c.isDigit = true
  fracDigits : ∀ c ∈ frac, c.isDigit = true
  shape : cs = int ∧ frac = [] ∨ cs = int ++ '.' :: frac

/-- The value of a decimal digit. -/
def digitValue (c : Char) : ℕ := c.toNat - 48

/-- The number that a decimal text writes. -/
def decimalValue (int frac : List Char) : ℚ := fixedPoint 10 digitValue int frac

/-- The parser answers with a number exactly if the trimmed text is a decimal and the number is
the floor of its scaled value. -/
def MeetsGrammar (s : String) (targetDecimals : UInt8) : Prop :=
  ∀ v, parseDecimalToFixed s targetDecimals = .ok v ↔
    ∃ int frac, IsDecimal (trimChars s.toList) int frac ∧
      ⌊decimalValue int frac * 10 ^ targetDecimals.toNat⌋₊ = v.toNat

theorem digitValue_lt {c : Char} (h : c.isDigit = true) : digitValue c < 10 := by
  simp only [Char.isDigit, Bool.and_eq_true, decide_eq_true_eq] at h
  have hle : c.toNat ≤ 57 := UInt32.le_iff_toNat_le.mp h.2
  unfold digitValue
  omega

theorem digitsValue_eq (cs : List Char) : digitsValue cs = numeral 10 digitValue cs := rfl

theorem floor_decimalValue {int frac : List Char} (h : ∀ c ∈ frac, c.isDigit = true) (k : ℕ) :
    ⌊decimalValue int frac * 10 ^ k⌋₊
      = digitsValue int * 10 ^ k + digitsValue (fitPlaces '0' k frac) :=
  floor_fixedPoint_mul (show digitValue '0' = 0 from rfl) (by decide)
    (fun c hc => digitValue_lt (h c hc)) int k

/-- The parts of a decimal are the text before the first point and the text after it. -/
theorem isDecimal_iff {cs int frac : List Char} :
    IsDecimal cs int frac ↔
      int = cs.takeWhile (· ≠ '.') ∧ frac = (cs.dropWhile (· ≠ '.')).drop 1 ∧
        int ≠ [] ∧ (∀ c ∈ int, c.isDigit = true) ∧ ∀ c ∈ frac, c.isDigit = true := by
  constructor
  · rintro ⟨hne, hint, hfrac, hshape⟩
    -- digits are no points, so the first point ends the integer part
    have hpoint : ∀ c ∈ int, decide (c ≠ '.') = true := by
      intro c hc
      refine decide_eq_true fun hdot => ?_
      have hdigit := hint c hc
      rw [hdot] at hdigit
      exact absurd hdigit (by decide)
    rcases hshape with ⟨rfl, rfl⟩ | rfl
    · rw [List.takeWhile_eq_self_iff.mpr hpoint, List.dropWhile_eq_nil_iff.mpr hpoint]
      exact ⟨rfl, rfl, hne, hint, hfrac⟩
    · rw [List.takeWhile_append_of_pos hpoint, List.dropWhile_append_of_pos hpoint]
      refine ⟨?_, ?_, hne, hint, hfrac⟩
      · simp
      · simp
  · rintro ⟨rfl, rfl, hne, hint, hfrac⟩
    refine ⟨hne, hint, hfrac, ?_⟩
    have hsplit := List.takeWhile_append_dropWhile (p := fun c => decide (c ≠ '.')) (l := cs)
    cases hrest : cs.dropWhile (· ≠ '.') with
    | nil =>
        rw [hrest, List.append_nil] at hsplit
        exact .inl ⟨hsplit.symm, rfl⟩
    | cons c rest =>
        have hdot := List.head_dropWhile_not (fun c => decide (c ≠ '.')) (l := cs)
          (by rw [hrest]; exact List.cons_ne_nil _ _)
        simp only [hrest, List.head_cons, decide_eq_false_iff_not, not_not] at hdot
        rw [hrest, hdot] at hsplit
        exact .inr hsplit.symm

/-- A text is a decimal in one way at most. -/
theorem IsDecimal.iff_eq {cs int frac : List Char} (h : IsDecimal cs int frac)
    {int' frac' : List Char} : IsDecimal cs int' frac' ↔ int' = int ∧ frac' = frac := by
  constructor
  · intro h'
    obtain ⟨rfl, rfl, -⟩ := isDecimal_iff.mp h
    obtain ⟨rfl, rfl, -⟩ := isDecimal_iff.mp h'
    exact ⟨rfl, rfl⟩
  · rintro ⟨rfl, rfl⟩
    exact h

/-! ## What the parser computes -/

theorem parseU128_eq_ok_iff {digits : List Char} {n : ℕ} :
    parseU128 digits = .ok n ↔ digits ≠ [] ∧ digitsValue digits < 2 ^ 128 ∧
      digitsValue digits = n := by
  unfold parseU128
  split_ifs with hempty hlt
  · refine iff_of_false nofun fun h => h.1 (List.isEmpty_iff.mp hempty)
  · rw [Except.ok.injEq]
    exact ⟨fun h => ⟨mt List.isEmpty_iff.mpr hempty, hlt, h⟩, fun h => h.2.2⟩
  · exact iff_of_false nofun fun h => hlt h.2.1

/-- The fraction is brought to its places and read; with no places, a fraction is refused. -/
theorem parseFraction_eq_ok_iff {frac : List Char} {k n : ℕ} :
    parseFraction frac k = .ok n ↔ (frac = [] ∨ k ≠ 0) ∧
      digitsValue (fitPlaces '0' k frac) < 2 ^ 128 ∧
      digitsValue (fitPlaces '0' k frac) = n := by
  have hzeros : digitsValue (List.replicate k '0') = 0 := numeral_replicate (by rfl) k
  unfold parseFraction
  split_ifs with hempty hle
  · -- no fraction: the places are all zero
    obtain rfl := List.isEmpty_iff.mp hempty
    rw [Except.ok.injEq, fitPlaces, List.take_nil, List.nil_append, List.length_nil, Nat.sub_zero,
      hzeros]
    simp
  · -- padded: there is a place, since there is a digit
    have hne := mt List.isEmpty_iff.mpr hempty
    have hk : k ≠ 0 := by
      have := List.length_pos_of_ne_nil hne
      omega
    have hfit : frac ++ List.replicate (k - frac.length) '0' = fitPlaces '0' k frac := by
      rw [fitPlaces, List.take_of_length_le hle]
    rw [mapError_eq_ok_iff, hfit, parseU128_eq_ok_iff, ← hfit]
    refine and_congr_left fun _ => iff_of_true ?_ (.inr hk)
    exact List.append_ne_nil_of_left_ne_nil hne _
  · -- cut: what is left is empty if there are no places
    have hne := mt List.isEmpty_iff.mpr hempty
    have hfit : frac.take k = fitPlaces '0' k frac := by
      rw [fitPlaces, Nat.sub_eq_zero_of_le (by omega), List.replicate_zero, List.append_nil]
    rw [mapError_eq_ok_iff, hfit, parseU128_eq_ok_iff, ← hfit]
    refine and_congr_left fun _ => ?_
    rw [Ne, List.take_eq_nil_iff, not_or]
    exact ⟨fun h => .inr h.1, fun h => ⟨h.resolve_left hne, hne⟩⟩

/-- A sum that fits into 64 bits passes both checks for overflow. -/
theorem checkedSum_eq_ok_iff {scaled frac : ℕ} {overflow range : String} {v : UInt64} :
    (if 2 ^ 128 ≤ scaled ∨ 2 ^ 128 ≤ scaled + frac then .error overflow
      else if 2 ^ 64 ≤ scaled + frac then .error range
      else .ok (UInt64.ofNat (scaled + frac)) : Except String UInt64) = .ok v ↔
    scaled + frac = v.toNat := by
  have hv := v.toNat_lt
  split_ifs with hoverflow hrange
  · refine iff_of_false nofun fun h => ?_
    omega
  · refine iff_of_false nofun fun h => ?_
    omega
  · rw [Except.ok.injEq, ← UInt64.toNat_inj,
      UInt64.toNat_ofNat_of_lt' (show scaled + frac < 2 ^ 64 by omega)]

/-- The factor of the parser. -/
def placesFactor (targetDecimals : UInt8) : ℕ := EscrowTracker.pow10 targetDecimals.toUInt32

theorem placesFactor_eq (d : UInt8) :
    placesFactor d = if d.toNat < 128 then 10 ^ d.toNat % 2 ^ 128 else 0 := by
  rw [placesFactor, EscrowTracker.pow10, UInt8.toNat_toUInt32]

/-- The parts of a decimal are what stands before and after the first point. -/
theorem exists_isDecimal_iff {cs : List Char} {P : List Char → List Char → Prop} :
    (∃ int frac, IsDecimal cs int frac ∧ P int frac) ↔
      (cs.takeWhile (· ≠ '.') ≠ [] ∧
        (∀ c ∈ cs.takeWhile (· ≠ '.'), c.isDigit = true) ∧
        ∀ c ∈ (cs.dropWhile (· ≠ '.')).drop 1, c.isDigit = true) ∧
      P (cs.takeWhile (· ≠ '.')) ((cs.dropWhile (· ≠ '.')).drop 1) := by
  constructor
  · rintro ⟨int, frac, hdec, hP⟩
    obtain ⟨rfl, rfl, hrest⟩ := isDecimal_iff.mp hdec
    exact ⟨hrest, hP⟩
  · rintro ⟨hrest, hP⟩
    exact ⟨_, _, isDecimal_iff.mpr ⟨rfl, rfl, hrest⟩, hP⟩

/-- **What is parsed.**  The parser answers on decimals only, with the digits before the point
times its factor and the fraction in its places. -/
theorem parseDecimalToFixed_eq_ok_iff {s : String} {d : UInt8} {v : UInt64} :
    parseDecimalToFixed s d = .ok v ↔
      ∃ int frac, IsDecimal (trimChars s.toList) int frac ∧ digitsValue int < 2 ^ 128 ∧
        (frac = [] ∨ d.toNat ≠ 0) ∧
        digitsValue int * placesFactor d + digitsValue (fitPlaces '0' d.toNat frac)
          = v.toNat := by
  have hv := v.toNat_lt
  unfold parseDecimalToFixed
  dsimp only
  generalize hcs : trimChars s.toList = cs
  -- each refusal contradicts the grammar
  rw [exists_isDecimal_iff]
  split_ifs with hempty hint hfrac
  · refine iff_of_false nofun fun h => h.1.1 ?_
    rw [List.isEmpty_iff.mp hempty]
    rfl
  · refine iff_of_false nofun fun ⟨⟨hne, hdigits, _⟩, _⟩ => ?_
    simp only [Bool.or_eq_true, List.isEmpty_iff, Bool.not_eq_true', List.all_eq_false] at hint
    rcases hint with ⟨c, hc, hnot⟩ | hnil
    · exact hnot (hdigits c hc)
    · exact hne hnil
  · refine iff_of_false nofun fun ⟨⟨_, _, hdigits⟩, _⟩ => ?_
    simp only [Bool.not_eq_true', List.all_eq_false] at hfrac
    obtain ⟨c, hc, hnot⟩ := hfrac
    exact hnot (hdigits c hc)
  · simp only [Bool.or_eq_true, List.isEmpty_iff, Bool.not_eq_true', List.all_eq_false, not_or,
      not_exists, not_and, not_not] at hint hfrac
    rw [and_iff_right ⟨hint.2, hint.1, hfrac⟩]
    show Except.bind _ _ = _ ↔ _
    rw [bind_eq_ok_iff]
    constructor
    · rintro ⟨intVal, hparsed, h⟩
      obtain ⟨-, hlt, rfl⟩ := parseU128_eq_ok_iff.mp (mapError_eq_ok_iff.mp hparsed)
      obtain ⟨fracVal, hparsed, h⟩ := bind_eq_ok_iff.mp h
      obtain ⟨hplaces, -, rfl⟩ := parseFraction_eq_ok_iff.mp hparsed
      exact ⟨hlt, hplaces, checkedSum_eq_ok_iff.mp h⟩
    · rintro ⟨hlt, hplaces, hsum⟩
      refine ⟨_, mapError_eq_ok_iff.mpr (parseU128_eq_ok_iff.mpr ⟨hint.2, hlt, rfl⟩), ?_⟩
      refine bind_eq_ok_iff.mpr ⟨_, parseFraction_eq_ok_iff.mpr ⟨hplaces, ?_, rfl⟩,
        checkedSum_eq_ok_iff.mpr hsum⟩
      omega

/-! ## Where the parser meets the grammar -/

/-- With no places, a decimal with a fraction is refused although its floor fits. -/
def RefusesFraction (targetDecimals : UInt8) (int frac : List Char) : Prop :=
  targetDecimals.toNat = 0 ∧ frac ≠ [] ∧ digitsValue int < 2 ^ 64

/-- With 128 places or more the factor is zero: of a decimal of 1 or more only the fraction is
left. -/
def LosesInteger (targetDecimals : UInt8) (int frac : List Char) : Prop :=
  128 ≤ targetDecimals.toNat ∧ 0 < digitsValue int ∧ digitsValue int < 2 ^ 128 ∧
    digitsValue (fitPlaces '0' targetDecimals.toNat frac) < 2 ^ 64

/-- Below 128 places the factor gives the 64-bit numbers that the power gives. -/
theorem scaled_eq_iff_of_lt {k n f : ℕ} (hk : k < 128) (v : UInt64) :
    n < 2 ^ 128 ∧ n * (10 ^ k % 2 ^ 128) + f = v.toNat ↔ n * 10 ^ k + f = v.toNat := by
  have hv := v.toNat_lt
  rcases Nat.eq_zero_or_pos n with rfl | hn
  · simp
  rcases Nat.lt_or_ge k 39 with hsmall | hlarge
  · -- the factor is exact
    have hpow : 10 ^ k % 2 ^ 128 = 10 ^ k :=
      Nat.mod_eq_of_lt ((Nat.pow_le_pow_right (by norm_num) (Nat.le_of_lt_succ hsmall)).trans_lt
        (by norm_num))
    have hle : n ≤ n * 10 ^ k := Nat.le_mul_of_pos_right n (by positivity)
    rw [hpow]
    exact ⟨fun h => h.2, fun h => ⟨by omega, h⟩⟩
  · -- neither product fits
    have hwrapped := EscrowTracker.two_pow_le_ten_pow_mod hlarge hk
    have hle := Nat.mod_le (10 ^ k) (2 ^ 128)
    have hlow : n * (10 ^ k % 2 ^ 128) ≤ n * 10 ^ k := Nat.mul_le_mul_left n hle
    have hhigh : 2 ^ 64 ≤ n * (10 ^ k % 2 ^ 128) :=
      hwrapped.trans (Nat.le_mul_of_pos_left _ hn)
    exact iff_of_false (fun h => by omega) fun h => by omega

/-- The factor and the power that it stands for scale a decimal to the same 64-bit numbers,
unless the integer is lost. -/
theorem scaled_eq_iff {d : UInt8} {int frac : List Char} :
    (∀ v : UInt64,
      digitsValue int < 2 ^ 128 ∧
          digitsValue int * placesFactor d + digitsValue (fitPlaces '0' d.toNat frac) = v.toNat ↔
        digitsValue int * 10 ^ d.toNat + digitsValue (fitPlaces '0' d.toNat frac) = v.toNat) ↔
      ¬ LosesInteger d int frac := by
  unfold LosesInteger
  rw [placesFactor_eq]
  generalize digitsValue int = n
  generalize digitsValue (fitPlaces '0' d.toNat frac) = f
  generalize d.toNat = k
  by_cases hk : k < 128
  · refine iff_of_true (fun v => ?_) fun h => by omega
    rw [if_pos hk]
    exact scaled_eq_iff_of_lt hk v
  · -- the factor is zero, the power too large for 64 bits
    rw [if_neg hk, Nat.mul_zero, Nat.zero_add]
    rcases Nat.eq_zero_or_pos n with rfl | hn
    · refine iff_of_true (fun v => ?_) fun h => by omega
      simp
    have hpow : 2 ^ 64 ≤ 10 ^ k :=
      le_trans (by norm_num) (Nat.pow_le_pow_right (by norm_num) (Nat.le_of_not_lt hk))
    have hlarge : 2 ^ 64 ≤ n * 10 ^ k := hpow.trans (Nat.le_mul_of_pos_left _ hn)
    constructor
    · rintro h ⟨-, -, hlt, hfits⟩
      have hread := (h (UInt64.ofNat f)).mp ⟨hlt, (UInt64.toNat_ofNat_of_lt' hfits).symm⟩
      rw [UInt64.toNat_ofNat_of_lt' hfits] at hread
      omega
    · intro h v
      have hv := v.toNat_lt
      exact iff_of_false (fun hread => h (by omega)) fun hread => by omega

theorem digitsValue_fitPlaces_zero (frac : List Char) :
    digitsValue (fitPlaces '0' 0 frac) = 0 := by
  rw [fitPlaces, Nat.zero_sub]
  rfl

/-- **The grammar.**  On a text and a number of places the parser answers as the grammar says if
and only if the text is no decimal that it refuses for its fraction or that loses its
integer. -/
theorem parseDecimalToFixed_meets_iff (s : String) (targetDecimals : UInt8) :
    MeetsGrammar s targetDecimals ↔
      ∀ int frac, IsDecimal (trimChars s.toList) int frac →
        ¬ RefusesFraction targetDecimals int frac ∧ ¬ LosesInteger targetDecimals int frac := by
  unfold MeetsGrammar
  by_cases hdec : ∃ int frac, IsDecimal (trimChars s.toList) int frac
  · -- the parts are unique, so the question is about one decimal
    obtain ⟨int, frac, hdec⟩ := hdec
    have hone : (∀ int' frac', IsDecimal (trimChars s.toList) int' frac' →
        ¬ RefusesFraction targetDecimals int' frac' ∧ ¬ LosesInteger targetDecimals int' frac') ↔
          ¬ RefusesFraction targetDecimals int frac ∧ ¬ LosesInteger targetDecimals int frac := by
      refine ⟨fun h => h int frac hdec, fun h int' frac' hdec' => ?_⟩
      obtain ⟨rfl, rfl⟩ := hdec.iff_eq.mp hdec'
      exact h
    rw [hone]
    simp only [parseDecimalToFixed_eq_ok_iff, hdec.iff_eq, and_assoc, exists_and_left,
      exists_eq_left, floor_decimalValue hdec.fracDigits]
    by_cases hplaces : frac = [] ∨ targetDecimals.toNat ≠ 0
    · have hreads : ¬ RefusesFraction targetDecimals int frac := fun h =>
        hplaces.elim h.2.1 fun hne => hne h.1
      simp only [hplaces, true_and]
      rw [scaled_eq_iff, and_iff_right hreads]
    · -- refused: the fraction has no places, so the floor is the integer
      obtain ⟨hfrac, hzero⟩ := not_or.mp hplaces
      have hkeeps : ¬ LosesInteger targetDecimals int frac := fun h => by
        have := h.1
        omega
      rw [and_iff_left hkeeps]
      constructor
      · rintro h ⟨-, -, hlt⟩
        have hread := (h (UInt64.ofNat (digitsValue int))).mpr (by
          rw [not_not.mp hzero, digitsValue_fitPlaces_zero, pow_zero, mul_one, add_zero,
            UInt64.toNat_ofNat_of_lt' hlt])
        exact hplaces hread.2.1
      · intro h v
        refine iff_of_false (fun hread => hplaces hread.2.1) fun hread => ?_
        rw [not_not.mp hzero, digitsValue_fitPlaces_zero, pow_zero, mul_one, add_zero] at hread
        exact h ⟨not_not.mp hzero, hfrac, hread ▸ v.toNat_lt⟩
  · refine iff_of_true (fun v => ?_) fun int frac h => absurd ⟨int, frac, h⟩ hdec
    -- no decimal: nothing is read and nothing is asked
    rw [parseDecimalToFixed_eq_ok_iff]
    exact iff_of_false (fun ⟨int, frac, h, _⟩ => hdec ⟨int, frac, h⟩)
      fun ⟨int, frac, h, _⟩ => hdec ⟨int, frac, h⟩

/-- "1.5" of a token without decimals is refused, where the grammar gives 1; and with 128
decimals "1" is read as 0, where nothing fits. -/
theorem fraction_refused_integer_lost : ¬ MeetsGrammar "1.5" 0 ∧ ¬ MeetsGrammar "1" 128 := by
  constructor
  · intro h
    have hdec : IsDecimal (trimChars "1.5".toList) ['1'] ['5'] :=
      ⟨by decide, List.forall_mem_singleton.mpr rfl, List.forall_mem_singleton.mpr rfl,
        .inr (by decide)⟩
    have hread := (h 1).mpr ⟨_, _, hdec, floor_decimalValue hdec.fracDigits _⟩
    exact absurd hread (by decide +kernel)
  · intro h
    obtain ⟨int, frac, hdec, hfloor⟩ := (h 0).mp (by decide +kernel)
    have hone : IsDecimal (trimChars "1".toList) ['1'] [] :=
      ⟨by decide, List.forall_mem_singleton.mpr rfl, List.forall_mem_nil _, .inl (by decide)⟩
    obtain ⟨rfl, rfl⟩ := hone.iff_eq.mp hdec
    rw [floor_decimalValue hone.fracDigits] at hfloor
    exact absurd hfloor (by decide +kernel)
