/-
# Numbers in positional notation

The number that a string of digits writes, for any base and any digits.  A fraction that is
padded with zeros, or cut, to a fixed number of places is the floor of the scaled value
(`floor_fixedPoint_mul`).
-/
import Mathlib.Algebra.Order.Floor.Semifield
import Mathlib.Data.Nat.Digits.Lemmas
import Mathlib.Data.Rat.Floor

variable {α : Type*} {base : ℕ} {val : α → ℕ}

/-- The number that digits write, the most significant one first. -/
def numeral (base : ℕ) (val : α → ℕ) (ds : List α) : ℕ :=
  ds.foldl (fun n d => base * n + val d) 0

/-- A numeral is Mathlib's `Nat.ofDigits`, read from the other end. -/
theorem numeral_eq_ofDigits (ds : List α) :
    numeral base val ds = Nat.ofDigits base (ds.map val).reverse := by
  rw [Nat.ofDigits_eq_foldr, List.foldr_reverse, List.foldl_map]
  unfold numeral
  congr 1
  funext n d
  exact add_comm _ _

@[simp] theorem numeral_nil : numeral base val [] = 0 := rfl

/-- The leading digits count for as many places as digits follow. -/
theorem numeral_append (xs ys : List α) :
    numeral base val (xs ++ ys)
      = numeral base val xs * base ^ ys.length + numeral base val ys := by
  rw [numeral_eq_ofDigits, numeral_eq_ofDigits, numeral_eq_ofDigits, List.map_append,
    List.reverse_append, Nat.ofDigits_append, List.length_reverse, List.length_map]
  ring

/-- Digits below the base write a number below the next power. -/
theorem numeral_lt {ds : List α} (hbase : 1 < base) (h : ∀ d ∈ ds, val d < base) :
    numeral base val ds < base ^ ds.length := by
  have hlt := Nat.ofDigits_lt_base_pow_length (l := (ds.map val).reverse) hbase (by simpa using h)
  rwa [← numeral_eq_ofDigits, List.length_reverse, List.length_map] at hlt

/-- Zeros are zero. -/
theorem numeral_replicate {zero : α} (hzero : val zero = 0) (n : ℕ) :
    numeral base val (List.replicate n zero) = 0 := by
  induction n with
  | zero => rfl
  | succ n ih =>
      rw [List.replicate_succ', numeral_append, ih]
      simp [numeral, hzero]

/-- The leading digits write the quotient by a power of the base. -/
theorem numeral_take {ds : List α} (hbase : 1 < base) (h : ∀ d ∈ ds, val d < base) (k : ℕ) :
    numeral base val (ds.take k) = numeral base val ds / base ^ (ds.length - k) := by
  have hrest := numeral_lt hbase fun d hd => h d (List.mem_of_mem_drop hd (i := k))
  have hsplit : numeral base val (ds.take k ++ ds.drop k)
      = numeral base val (ds.take k) * base ^ (ds.drop k).length + numeral base val (ds.drop k) :=
    numeral_append _ _
  rw [List.take_append_drop, List.length_drop] at hsplit
  rw [List.length_drop] at hrest
  rw [hsplit, mul_comm, Nat.mul_add_div (by positivity), Nat.div_eq_of_lt hrest, add_zero]

/-- The first digit counts for all places behind it. -/
theorem numeral_cons (d : α) (ds : List α) :
    numeral base val (d :: ds) = val d * base ^ ds.length + numeral base val ds := by
  rw [← List.singleton_append, numeral_append]
  simp [numeral]

/-- Leading zeros do not count. -/
theorem numeral_replicate_append {zero : α} (hzero : val zero = 0) (n : ℕ) (ds : List α) :
    numeral base val (List.replicate n zero ++ ds) = numeral base val ds := by
  rw [numeral_append, numeral_replicate hzero, Nat.zero_mul, Nat.zero_add]

/-- Equally many digits below the base write one number only if they are the same. -/
theorem numeral_inj {xs ys : List α} (hbase : 1 < base) (hval : Function.Injective val)
    (hxs : ∀ d ∈ xs, val d < base) (hys : ∀ d ∈ ys, val d < base)
    (hlength : xs.length = ys.length) : numeral base val xs = numeral base val ys ↔ xs = ys := by
  constructor
  · intro h
    rw [numeral_eq_ofDigits, numeral_eq_ofDigits] at h
    have hdigits := Nat.ofDigits_inj_of_len_eq hbase (by simpa using hlength) (by simpa using hxs)
      (by simpa using hys) h
    exact List.map_injective_iff.mpr hval (List.reverse_injective hdigits)
  · rintro rfl
    rfl

/-! ## Fractions -/

/-- The number that digits before and after the point write. -/
def fixedPoint (base : ℕ) (val : α → ℕ) (int frac : List α) : ℚ :=
  numeral base val int + numeral base val frac / (base : ℚ) ^ frac.length

/-- Digits after the point, brought to `k` places: padded with zeros, or cut. -/
def fitPlaces (zero : α) (k : ℕ) (frac : List α) : List α :=
  frac.take k ++ List.replicate (k - frac.length) zero

/-- The fraction with `k` places is the floor of the scaled fraction. -/
theorem numeral_fitPlaces {zero : α} {frac : List α} (hzero : val zero = 0) (hbase : 1 < base)
    (h : ∀ d ∈ frac, val d < base) (k : ℕ) :
    numeral base val (fitPlaces zero k frac)
      = ⌊(numeral base val frac / (base : ℚ) ^ frac.length) * (base : ℚ) ^ k⌋₊ := by
  have hne : (base : ℚ) ≠ 0 := by exact_mod_cast (by omega : base ≠ 0)
  unfold fitPlaces
  rw [numeral_append, numeral_replicate hzero, List.length_replicate, numeral_take hbase h]
  rcases Nat.le_total frac.length k with hle | hle
  · -- the places are padded
    have hscale : (numeral base val frac / (base : ℚ) ^ frac.length) * (base : ℚ) ^ k
        = ((numeral base val frac * base ^ (k - frac.length) : ℕ) : ℚ) := by
      rw [← Nat.add_sub_of_le hle, pow_add, Nat.add_sub_cancel_left]
      push_cast
      field_simp
    rw [hscale, Nat.floor_natCast, Nat.sub_eq_zero_of_le hle, pow_zero, Nat.div_one, add_zero]
  · -- the places are cut
    have hscale : (numeral base val frac / (base : ℚ) ^ frac.length) * (base : ℚ) ^ k
        = (numeral base val frac : ℚ) / ((base ^ (frac.length - k) : ℕ) : ℚ) := by
      nth_rewrite 1 [← Nat.add_sub_of_le hle]
      rw [pow_add]
      push_cast
      field_simp
    rw [hscale, Nat.floor_div_eq_div, Nat.sub_eq_zero_of_le hle, pow_zero, mul_one, add_zero]

/-- **The floor of a scaled number.** -/
theorem floor_fixedPoint_mul {zero : α} {frac : List α} (hzero : val zero = 0) (hbase : 1 < base)
    (h : ∀ d ∈ frac, val d < base) (int : List α) (k : ℕ) :
    ⌊fixedPoint base val int frac * (base : ℚ) ^ k⌋₊
      = numeral base val int * base ^ k + numeral base val (fitPlaces zero k frac) := by
  have hcast : (numeral base val int : ℚ) * (base : ℚ) ^ k
      = ((numeral base val int * base ^ k : ℕ) : ℚ) := by
    push_cast
    rfl
  rw [fixedPoint, add_mul, hcast, numeral_fitPlaces hzero hbase h, add_comm,
    Nat.floor_add_natCast (by positivity), add_comm]
