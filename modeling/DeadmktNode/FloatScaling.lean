/-
# Scaling down and up again

A number of units is divided by the units of a whole, rounded, multiplied back and rounded again,
as programs do that keep amounts in a binary floating-point format.  With one bit to spare the
result is less than one unit off, so cutting it loses at most one unit and gains none
(`floor_scaled_up`), and rounding the product to the nearest unit is exact (`roundEven_scaled`).
-/
import DeadmktNode.FloatRounding

variable {K : Type*} [Field K] [LinearOrder K] [FloorRing K] [IsStrictOrderedRing K]

/-- A number within less than a half of an integer is rounded to it. -/
theorem roundEven_eq_of_abs_lt {q : K} {n : ℤ} (h : |q - n| < 1 / 2) : roundEven q = n := by
  have hround := abs_roundEven_sub_le q
  have hclose : |((roundEven q - n : ℤ) : K)| < 1 := by
    push_cast
    calc |(roundEven q : K) - n| = |(roundEven q - q) + (q - n)| := by ring_nf
      _ ≤ |roundEven q - q| + |q - n| := abs_add_le _ _
      _ < 1 := by linarith
  have hint : |roundEven q - n| < 1 := by exact_mod_cast hclose
  have hzero := Int.abs_lt_one_iff.mp hint
  omega

/-- A whole number that fits into the bits is not changed. -/
theorem roundBits_natCast {p n : ℕ} (h : n < 2 ^ p) : roundBits p (n : K) = n := by
  rcases Nat.eq_zero_or_pos n with rfl | hn
  · rw [Nat.cast_zero, roundBits, if_pos rfl]
  have hne : (n : K) ≠ 0 := by exact_mod_cast hn.ne'
  have hlog : Nat.log 2 n < p := Nat.log_lt_of_lt_pow hn.ne' h
  rw [roundBits, if_neg hne]
  dsimp only
  rw [Int.log_natCast]
  -- the unit in the last place divides the number
  obtain ⟨k, hk⟩ : ∃ k : ℕ, ((Nat.log 2 n : ℕ) : ℤ) + 1 - p = -k := by
    refine ⟨p - (Nat.log 2 n + 1), ?_⟩
    omega
  rw [hk, zpow_neg, zpow_natCast]
  have hpow : (2 : K) ^ k ≠ 0 := by positivity
  have hunits : (n : K) / (2 ^ k)⁻¹ = ((n * 2 ^ k : ℕ) : ℤ) := by
    push_cast
    field_simp
  rw [hunits, roundEven_eq_of_abs_lt (n := ((n * 2 ^ k : ℕ) : ℤ)) (by simp)]
  push_cast
  field_simp

/-! ## Down and up -/

section

variable {p n d : ℕ}

/-- Scaled down, rounded and scaled up, a number is off by its `2 ^ p`-th part at most. -/
theorem abs_scaled_sub_le (p : ℕ) (hn : 0 < n) (hd : 0 < d) :
    |roundBits p ((n : K) / d) * d - n| ≤ n / 2 ^ p := by
  have hnK : (0 : K) < n := by exact_mod_cast hn
  have hdK : (0 : K) < d := by exact_mod_cast hd
  have herror := abs_roundBits_sub_le p (div_pos hnK hdK)
  have hscale : roundBits p ((n : K) / d) * d - n = (roundBits p ((n : K) / d) - n / d) * d := by
    field_simp
  calc |roundBits p ((n : K) / d) * d - n|
      = |roundBits p ((n : K) / d) - n / d| * d := by rw [hscale, abs_mul, abs_of_pos hdK]
    _ ≤ n / d / 2 ^ p * d := mul_le_mul_of_nonneg_right herror hdK.le
    _ = n / 2 ^ p := by field_simp

/-- Rounding the number that was scaled down and up is exact. -/
theorem roundEven_scaled (h : 2 * (n + 1) ≤ 2 ^ p) (hd : 0 < d) :
    roundEven (roundBits p ((n : K) / d) * d) = n := by
  rcases Nat.eq_zero_or_pos n with rfl | hn
  · rw [Nat.cast_zero, zero_div, roundBits, if_pos rfl, zero_mul]
    exact roundEven_eq_of_abs_lt (n := 0) (by simp)
  apply roundEven_eq_of_abs_lt (n := (n : ℤ))
  have herror := abs_scaled_sub_le (K := K) p hn hd
  have hP : (2 : K) * (n + 1) ≤ 2 ^ p := by exact_mod_cast h
  have hpos : (0 : K) < 2 ^ p := by positivity
  have hsmall : (n : K) / 2 ^ p < 1 / 2 := by
    rw [div_lt_div_iff₀ hpos (by norm_num)]
    linarith
  push_cast
  exact lt_of_le_of_lt herror hsmall

/-- Rounded once more, the number is less than one unit off. -/
theorem abs_scaled_up_sub_lt (h : 2 * (n + 1) ≤ 2 ^ p) (hd : 0 < d) :
    |roundBits p (roundBits p ((n : K) / d) * d) - n| < 1 := by
  rcases Nat.eq_zero_or_pos n with rfl | hn
  · have hzero : roundBits p (0 : K) = 0 := if_pos rfl
    rw [Nat.cast_zero, zero_div, hzero, zero_mul, hzero]
    simp
  have hnK : (0 : K) < n := by exact_mod_cast hn
  have hP : (2 : K) * (n + 1) ≤ 2 ^ p := by exact_mod_cast h
  have hdown := abs_scaled_sub_le (K := K) p hn hd
  generalize roundBits p ((n : K) / d) * d = y at hdown ⊢
  have hpos : (0 : K) < 2 ^ p := by positivity
  have hbounds := abs_le.mp hdown
  have hsmall : (n : K) / 2 ^ p < 1 / 2 := by
    rw [div_lt_div_iff₀ hpos (by norm_num)]
    linarith
  have hone : (1 : K) ≤ n := by exact_mod_cast hn
  have hy : 0 < y := by linarith [hbounds.1]
  have hup := abs_roundBits_sub_le p hy
  have hyle : y ≤ n + 1 / 2 := by linarith [hbounds.2]
  calc |roundBits p y - n| = |(roundBits p y - y) + (y - n)| := by ring_nf
    _ ≤ |roundBits p y - y| + |y - n| := abs_add_le _ _
    _ ≤ y / 2 ^ p + n / 2 ^ p := add_le_add hup hdown
    _ ≤ (n + 1 / 2) / 2 ^ p + n / 2 ^ p := by gcongr
    _ = (2 * n + 1 / 2) / 2 ^ p := by ring
    _ < 1 := by
        rw [div_lt_one hpos]
        linarith

/-- **Down and up.**  Cut to a whole number of units, the number comes back, or one less. -/
theorem floor_scaled_up (h : 2 * (n + 1) ≤ 2 ^ p) (hd : 0 < d) :
    ⌊roundBits p (roundBits p ((n : K) / d) * d)⌋ = n ∨
      ⌊roundBits p (roundBits p ((n : K) / d) * d)⌋ + 1 = n := by
  have hclose := abs_lt.mp (abs_scaled_up_sub_lt (K := K) h hd)
  generalize roundBits p (roundBits p ((n : K) / d) * d) = y at hclose ⊢
  have hle : ⌊y⌋ ≤ n := by
    have hlt : ⌊y⌋ < (n : ℤ) + 1 := by
      rw [Int.floor_lt]
      push_cast
      linarith
    omega
  have hge : (n : ℤ) - 1 ≤ ⌊y⌋ := by
    rw [Int.le_floor]
    push_cast
    linarith
  omega

end
