/-
# The split of the first mint

The setup mints for 70% of the SUPRA of the trustee: 40% of the tokens of one kind and 30% of
each other kind, which lies exactly on the ratios that the contract admits.  The product of the
balance and the 70 is a `u64`.  Where it wraps around, tokens are minted for less, and none if
what is left of the product is too small; elsewhere the request is always valid
(`mintSplit_firstMint_iff`).
-/
import DeadmktNode.FundingSetup

namespace Setup

/-! ## What the contract admits -/

/-- `validate_amounts` of the contract. -/
structure ValidAmounts (low mid high : ℕ) : Prop where
  positive : 0 < low
  divisible : (low + mid + high) % 1000000 = 0
  base_ratio : 3 * high ≤ 2 * (low + mid)
  delta_ratio : 3 * (mid + high - 2 * low) ≤ low

namespace Balances

/-- The amounts as naturals. -/
def amounts (b : Balances) : List ℕ := [b.emm.toNat, b.kay.toNat, b.tee.toNat]

/-- The contract admits the amounts, in ascending order. -/
def Valid (b : Balances) : Prop :=
  ∃ low mid high, b.amounts.Perm [low, mid, high] ∧ low ≤ mid ∧ mid ≤ high ∧
    ValidAmounts low mid high

/-- The base units of all tokens. -/
def total (b : Balances) : ℕ := b.amounts.sum

end Balances

/-- What the first mint promises: too little SUPRA is reported exactly where 70% of the balance do
not pay ten tokens; else the request is valid and costs at most these 70%. -/
structure FirstMint (supraBalance : UInt64) (request : Option Balances) : Prop where
  insufficient : request = none ↔ supraBalance.toNat * 70 / 100 / 100 < 1000000
  valid : ∀ b, request = some b → b.Valid
  cost : ∀ b, request = some b → b.total * 100 * 100 ≤ supraBalance.toNat * 70

/-! ## The split -/

/-- How often ten tokens are minted: what is left of the product pays ten tokens so often. -/
def mintTens (supraBalance : UInt64) : ℕ := supraBalance.toNat * 70 % 2 ^ 64 / 10 ^ 10

/-- The base units of the whole split. -/
theorem toNat_mintTotal (supraBalance : UInt64) :
    (supraBalance * mintSupraFractionPct / 100 / supraPerTokenUnit / 1000000 * 1000000).toNat
      = 1000000 * mintTens supraBalance := by
  have hpct : mintSupraFractionPct.toNat = 70 := rfl
  have hunit : supraPerTokenUnit.toNat = 100 := rfl
  have hlt := Nat.mod_lt (supraBalance.toNat * 70) (Nat.two_pow_pos 64)
  simp only [UInt64.toNat_mul, UInt64.toNat_div, UInt64.reduceToNat, hpct, hunit]
  rw [Nat.div_div_eq_div_mul, Nat.div_div_eq_div_mul, Nat.mod_eq_of_lt (by omega), Nat.mul_comm]
  rfl

/-- Some tenths of a total are whole tokens. -/
theorem toNat_share {total k : UInt64} {n : ℕ} (htotal : total.toNat = 1000000 * n)
    (hn : n < 2 ^ 40) (hk : k.toNat ≤ 10) :
    (total * k / 10 / 100000 * 100000).toNat = 100000 * (k.toNat * n) := by
  have hle : k.toNat * n ≤ 10 * n := Nat.mul_le_mul_right n hk
  have hproduct : 1000000 * n * k.toNat = 1000000 * (k.toNat * n) := by
    rw [Nat.mul_assoc, Nat.mul_comm n]
  simp only [UInt64.toNat_mul, UInt64.toNat_div, UInt64.reduceToNat, htotal, hproduct]
  rw [Nat.mod_eq_of_lt (a := 1000000 * (k.toNat * n)) (by omega), Nat.div_div_eq_div_mul,
    Nat.mul_div_cancel_left _ (by decide), Nat.mod_eq_of_lt (by omega), Nat.mul_comm]

/-- Nothing is left over, so the heavy share is what the light ones leave. -/
theorem toNat_heavy {total heavy light : UInt64} {n : ℕ} (htotal : total.toNat = 1000000 * n)
    (hheavy : heavy.toNat = 400000 * n) (hlight : light.toNat = 300000 * n) :
    (heavy + (total - heavy - 2 * light)).toNat = 400000 * n := by
  have hleft : total - heavy = 2 * light := by
    apply UInt64.toNat_inj.mp
    have hlt := total.toNat_lt
    have htwo : (2 : UInt64).toNat = 2 := rfl
    rw [UInt64.toNat_sub, UInt64.toNat_mul, htwo, htotal, hheavy, hlight]
    omega
  rw [hleft, UInt64.sub_self, UInt64.add_zero, hheavy]

/-- The amounts of the split: four tokens of one kind for every three of each other one. -/
theorem mintSplit_eq (supraBalance : UInt64) (weightedIndex : ℕ) :
    (mintTens supraBalance = 0 ∧ mintSplit supraBalance weightedIndex = none) ∨
      ∃ b, 0 < mintTens supraBalance ∧ mintSplit supraBalance weightedIndex = some b ∧
        b.amounts.Perm [300000 * mintTens supraBalance, 300000 * mintTens supraBalance,
          400000 * mintTens supraBalance] := by
  have htotal := toNat_mintTotal supraBalance
  -- seventy percent of the balance, wrapped, in shares of ten
  have hlt : mintTens supraBalance < 2 ^ 40 := by
    have hmod := Nat.mod_lt (supraBalance.toNat * 70) (Nat.two_pow_pos 64)
    unfold mintTens
    omega
  have hlight := toNat_share (k := 3) htotal hlt (by decide)
  have hheavy := toNat_share (k := 4) htotal hlt (by decide)
  simp only [UInt64.reduceToNat, ← Nat.mul_assoc, Nat.reduceMul] at hlight hheavy
  have hheavy := toNat_heavy htotal hheavy hlight
  unfold mintSplit
  dsimp only
  -- one case for each token that may get the heavy share
  split_ifs with hfew
  · simp only [UInt64.lt_iff_toNat_lt, htotal, UInt64.reduceToNat] at hfew
    exact .inl ⟨by omega, rfl⟩
  · simp only [UInt64.lt_iff_toNat_lt, htotal, UInt64.reduceToNat] at hfew
    right
    split
    · refine ⟨_, by omega, rfl, ?_⟩
      simp only [Balances.amounts, hlight, hheavy]
      exact (List.Perm.swap _ _ _).trans (.cons _ (.swap _ _ _))
    · refine ⟨_, by omega, rfl, ?_⟩
      simp only [Balances.amounts, hlight, hheavy]
      exact .cons _ (.swap _ _ _)
    · refine ⟨_, by omega, rfl, ?_⟩
      simp only [Balances.amounts, hlight, hheavy]
      exact .refl _

/-! ## When the first mint keeps its promise -/

/-- Amounts of three, three and four are admitted: both ratios hold with equality. -/
theorem validAmounts_of_pos {n : ℕ} (hn : 0 < n) :
    ValidAmounts (300000 * n) (300000 * n) (400000 * n) where
  positive := by omega
  divisible := by omega
  base_ratio := by omega
  delta_ratio := by omega

/-- **The first mint.**  For every balance and whatever the user types, the request of the first
mint is valid and within 70% of the balance, and too little SUPRA is reported exactly where these
do not pay ten tokens, if and only if no product that wraps around leaves less than ten tokens. -/
theorem mintSplit_firstMint_iff (supraBalance : UInt64) (weightInput : String) :
    FirstMint supraBalance (mintSplit supraBalance (weightedIndex weightInput)) ↔
      ¬ (2 ^ 64 ≤ supraBalance.toNat * 70 ∧ supraBalance.toNat * 70 % 2 ^ 64 < 10 ^ 10) := by
  have hle : mintTens supraBalance * 10 ^ 10 ≤ supraBalance.toNat * 70 :=
    (Nat.div_mul_le_self _ _).trans (Nat.mod_le _ _)
  have hfew : mintTens supraBalance = 0 ↔ supraBalance.toNat * 70 % 2 ^ 64 < 10 ^ 10 :=
    Nat.div_eq_zero_iff_lt (by decide)
  have hpays : supraBalance.toNat * 70 / 100 / 100 = supraBalance.toNat * 70 / 10000 :=
    Nat.div_div_eq_div_mul _ _ _
  rcases mintSplit_eq supraBalance (weightedIndex weightInput) with
    ⟨hzero, hnone⟩ | ⟨b, hpos, hsome, hamounts⟩
  · rw [hnone]
    constructor
    · rintro hmint ⟨hwraps, -⟩
      have hless := hmint.insufficient.mp rfl
      omega
    · intro hkept
      refine ⟨iff_of_true rfl ?_, nofun, nofun⟩
      have hleft := hfew.mp hzero
      have hlt : supraBalance.toNat * 70 < 2 ^ 64 := by
        by_contra hwraps
        exact hkept ⟨Nat.not_lt.mp hwraps, hleft⟩
      rw [Nat.mod_eq_of_lt hlt] at hleft
      rw [hpays]
      omega
  · refine iff_of_true ?_ fun hwraps => hpos.ne' (hfew.mpr hwraps.2)
    rw [hsome]
    refine ⟨iff_of_false nofun ?_, ?_, ?_⟩
    · rw [hpays]
      omega
    · intro b' hb
      obtain rfl := Option.some.inj hb
      exact ⟨_, _, _, hamounts, le_refl _, by omega, validAmounts_of_pos hpos⟩
    · intro b' hb
      obtain rfl := Option.some.inj hb
      have htotal : b.total = 1000000 * mintTens supraBalance := by
        rw [Balances.total, hamounts.sum_eq]
        simp only [List.sum_cons, List.sum_nil]
        omega
      rw [htotal]
      omega

/-- 263524915338707881 quants are refused: seventy times that is 54 more than 2^64. -/
theorem mintSplit_wraps : ¬ ∀ (supraBalance : UInt64) (weightInput : String),
    FirstMint supraBalance (mintSplit supraBalance (weightedIndex weightInput)) := by
  intro h
  have hpays := (h 263524915338707881 "").insufficient.mp (by decide)
  exact absurd hpays (by decide)

end Setup
