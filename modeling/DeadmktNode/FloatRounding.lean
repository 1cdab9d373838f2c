/-
# Rounding to a number of bits

A positive number rounded to `p` significant bits, to the nearest one and to the even one of
two, as the operations of a binary floating-point format give it where neither overflow nor
underflow comes in.  Rounding does not leave a power of two behind (`roundBits_le_zpow`), and it
moves a number by at most its `2^p`-th part (`abs_roundBits_sub_le`).
-/
import Mathlib.Data.Int.Log
import Mathlib.Data.Rat.Floor
import Mathlib.Tactic.FieldSimp
import Mathlib.Tactic.Linarith
import Mathlib.Tactic.Positivity

variable {K : Type*} [Field K] [LinearOrder K] [FloorRing K]

/-- The nearest integer, of two the even one. -/
def roundEven (q : K) : ℤ :=
  if q - ⌊q⌋ < 1 / 2 ∨ q - ⌊q⌋ = 1 / 2 ∧ 2 ∣ ⌊q⌋ then ⌊q⌋ else ⌊q⌋ + 1

/-- The number rounded to `p` significant bits, if it is positive. -/
def roundBits (p : ℕ) (q : K) : K :=
  if q = 0 then 0
  else
    let ulp : K := 2 ^ (Int.log 2 q + 1 - p)
    roundEven (q / ulp) * ulp

variable [IsStrictOrderedRing K]

theorem abs_roundEven_sub_le (q : K) : |(roundEven q : K) - q| ≤ 1 / 2 := by
  have hfloor := Int.floor_le q
  have hlt := Int.lt_floor_add_one q
  unfold roundEven
  split_ifs with h
  · have hle : q - ⌊q⌋ ≤ 1 / 2 := h.elim le_of_lt fun h => h.1.le
    rw [abs_le]
    constructor <;> linarith
  · have hge : 1 / 2 ≤ q - ⌊q⌋ := not_lt.mp fun hlt => h (.inl hlt)
    rw [abs_le]
    push_cast
    constructor <;> linarith

/-- No integer is passed. -/
theorem roundEven_le {q : K} {n : ℤ} (h : q ≤ n) : roundEven q ≤ n := by
  have hfloor : ⌊q⌋ ≤ n := Int.floor_le_iff.mpr (lt_of_le_of_lt h (lt_add_one _))
  rcases hfloor.eq_or_lt with heq | hlt
  · -- the number is the integer itself
    have hq : q = n := le_antisymm h (heq ▸ Int.floor_le q)
    have hzero : q - ⌊q⌋ = 0 := by rw [heq, hq, sub_self]
    rw [roundEven, if_pos (.inl (by rw [hzero]; norm_num)), heq]
  · unfold roundEven
    split_ifs
    · exact hlt.le
    · exact hlt

/-- **Powers of two.**  A number up to a power of two is rounded to one up to it. -/
theorem roundBits_le_zpow {p : ℕ} {q : K} {k : ℤ} (hp : 0 < p) (hq : 0 < q)
    (h : q ≤ 2 ^ k) : roundBits p q ≤ 2 ^ k := by
  have hlog : Int.log 2 q ≤ k := by
    have hmono := Int.log_mono_right (b := 2) hq h
    have hpow : Int.log 2 (((2 : ℕ) : K) ^ k) = k := Int.log_zpow (by decide) k
    rw [Nat.cast_ofNat] at hpow
    rwa [hpow] at hmono
  have hnext : q < 2 ^ (Int.log 2 q + 1) := by
    exact_mod_cast Int.lt_zpow_succ_log_self (by decide : 1 < 2) q
  -- the smaller one of the two bounds is a whole number of units in the last place
  obtain ⟨m, hm, hqm, hmk⟩ : ∃ m : ℤ, Int.log 2 q ≤ m ∧ q ≤ (2 : K) ^ m ∧ m ≤ k := by
    rcases hlog.eq_or_lt with heq | hlt
    · exact ⟨k, hlog, h, le_refl k⟩
    · exact ⟨Int.log 2 q + 1, by omega, hnext.le, by omega⟩
  rw [roundBits, if_neg hq.ne']
  dsimp only
  generalize hulp : Int.log 2 q + 1 - (p : ℤ) = e
  have hpos : (0 : K) < 2 ^ e := zpow_pos (by norm_num) e
  obtain ⟨n, hn⟩ := Int.eq_ofNat_of_zero_le (show 0 ≤ m - e by omega)
  have hunits : (2 : K) ^ m = ((2 ^ n : ℕ) : ℤ) * 2 ^ e := by
    rw [show m = n + e by omega, zpow_add₀ (by norm_num)]
    push_cast
    rw [zpow_natCast]
  have hround : roundEven (q / 2 ^ e) ≤ ((2 ^ n : ℕ) : ℤ) := by
    apply roundEven_le
    rw [div_le_iff₀ hpos, ← hunits]
    exact hqm
  calc (roundEven (q / 2 ^ e) : K) * 2 ^ e
      ≤ (((2 ^ n : ℕ) : ℤ) : K) * 2 ^ e := by
        apply mul_le_mul_of_nonneg_right _ hpos.le
        exact_mod_cast hround
    _ = 2 ^ m := hunits.symm
    _ ≤ 2 ^ k := zpow_le_zpow_right₀ (by norm_num) hmk

/-- **Half a unit in the last place.** -/
theorem abs_roundBits_sub_le (p : ℕ) {q : K} (hq : 0 < q) :
    |roundBits p q - q| ≤ q / 2 ^ p := by
  have hlog : (2 : K) ^ Int.log 2 q ≤ q := by
    exact_mod_cast Int.zpow_log_le_self (by decide : 1 < 2) hq
  rw [roundBits, if_neg hq.ne']
  dsimp only
  have hulp : (2 : K) ^ (Int.log 2 q + 1 - p) = 2 * 2 ^ Int.log 2 q / 2 ^ p := by
    rw [zpow_sub₀ (by norm_num), zpow_add₀ (by norm_num), zpow_one, zpow_natCast, mul_comm]
  have hpos : (0 : K) < 2 ^ (Int.log 2 q + 1 - p) := zpow_pos (by norm_num) _
  generalize (2 : K) ^ (Int.log 2 q + 1 - p) = ulp at hulp hpos ⊢
  have herror : (roundEven (q / ulp) : K) * ulp - q = (roundEven (q / ulp) - q / ulp) * ulp := by
    field_simp
  calc |(roundEven (q / ulp) : K) * ulp - q|
      = |(roundEven (q / ulp) : K) - q / ulp| * ulp := by rw [herror, abs_mul, abs_of_pos hpos]
    _ ≤ 1 / 2 * ulp := mul_le_mul_of_nonneg_right (abs_roundEven_sub_le _) hpos.le
    _ = 2 ^ Int.log 2 q / 2 ^ p := by
        rw [hulp]
        ring
    _ ≤ q / 2 ^ p := by gcongr

/-! ## Quotients of small numbers -/

/-- A quotient that is above one half stays above it, unless the numbers are as large as the
precision. -/
theorem half_lt_roundBits_div_iff {p : ℕ} {a b : ℕ} (hb : 0 < b) (hsmall : b + 1 < 2 ^ p) :
    (1 / 2 : K) < roundBits p ((a : K) / b) ↔ b < 2 * a := by
  have hbK : (0 : K) < b := by exact_mod_cast hb
  have hp : 0 < p := by
    by_contra hzero
    obtain rfl : p = 0 := by omega
    omega
  constructor
  · intro h
    by_contra hle
    have hq : (a : K) / b ≤ 2 ^ (-1 : ℤ) := by
      rw [div_le_iff₀ hbK, zpow_neg_one]
      have : (2 : K) * a ≤ b := by exact_mod_cast not_lt.mp hle
      linarith
    rcases Nat.eq_zero_or_pos a with rfl | ha
    · rw [Nat.cast_zero, zero_div, roundBits, if_pos rfl] at h
      linarith
    · have haK : (0 : K) < a := by exact_mod_cast ha
      -- one half is a float, so rounding does not pass it
      have hround := roundBits_le_zpow hp (div_pos haK hbK) hq
      rw [zpow_neg_one] at hround
      linarith
  · intro h
    have haK : (0 : K) < a := by exact_mod_cast (by omega : 0 < a)
    have hq := div_pos haK hbK
    have herror := (abs_le.mp (abs_roundBits_sub_le p hq)).1
    have hP : (b : K) + 1 < 2 ^ p := by exact_mod_cast hsmall
    -- above one half the quotient is so by at least one part in `2 * b`, more than the error
    have hfrac : (b : K) + 1 ≤ 2 * a := by exact_mod_cast h
    generalize (2 : K) ^ p = P at herror hP
    have hPpos : 0 < P := by linarith
    have hscaled : (b + 1 : K) * (P - 1) ≤ 2 * a * (P - 1) :=
      mul_le_mul_of_nonneg_right hfrac (by linarith)
    have hquot : 1 / 2 < (a : K) / b - a / b / P := by
      have heq : (a : K) / b - a / b / P = a * (P - 1) / (b * P) := by
        field_simp
      rw [heq, div_lt_div_iff₀ (by norm_num) (by positivity)]
      linarith
    linarith
