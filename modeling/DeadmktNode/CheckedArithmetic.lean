/-
# Checked arithmetic on words

The operations on 64-bit words as they run with overflow checks: a result that does not fit, or a
division by zero, leaves no value.  A computation that begins with an operation has a value
exactly if the operation does not fail and the rest has a value for what the wrapping operation
computes.
-/
import Mathlib.Algebra.Group.Nat.Defs
import Mathlib.Tactic.SplitIfs

namespace UInt64

/-- `u64::checked_add`. -/
def checkedAdd (a b : UInt64) : Option UInt64 :=
  if a.toNat + b.toNat < 2 ^ 64 then some (a + b) else none

/-- `u64::checked_mul`. -/
def checkedMul (a b : UInt64) : Option UInt64 :=
  if a.toNat * b.toNat < 2 ^ 64 then some (a * b) else none

/-- `u64::checked_div`. -/
def checkedDiv (a b : UInt64) : Option UInt64 := if b = 0 then none else some (a / b)

/-- `u64::checked_rem`. -/
def checkedRem (a b : UInt64) : Option UInt64 := if b = 0 then none else some (a % b)

section

variable {α : Type} {a b : UInt64} {f : UInt64 → Option α}

/-- A value that is there under a condition. -/
theorem isSome_bind_ite {p : Prop} [Decidable p] {c : UInt64} :
    ((if p then some c else none).bind f).isSome ↔ p ∧ (f c).isSome := by
  split_ifs with hp
  · exact (and_iff_right hp).symm
  · exact iff_of_false Bool.false_ne_true fun hsome => hp hsome.1

/-- What follows a sum is there if the sum fits and it is there for the sum. -/
theorem isSome_checkedAdd_bind :
    ((checkedAdd a b).bind f).isSome ↔ a.toNat + b.toNat < 2 ^ 64 ∧ (f (a + b)).isSome :=
  isSome_bind_ite

/-- The same for a product. -/
theorem isSome_checkedMul_bind :
    ((checkedMul a b).bind f).isSome ↔ a.toNat * b.toNat < 2 ^ 64 ∧ (f (a * b)).isSome :=
  isSome_bind_ite

/-- A quotient only needs a divisor. -/
theorem isSome_checkedDiv_bind :
    ((checkedDiv a b).bind f).isSome ↔ b ≠ 0 ∧ (f (a / b)).isSome := by
  rw [checkedDiv, ← ite_not]
  exact isSome_bind_ite

theorem isSome_checkedRem_bind :
    ((checkedRem a b).bind f).isSome ↔ b ≠ 0 ∧ (f (a % b)).isSome := by
  rw [checkedRem, ← ite_not]
  exact isSome_bind_ite

/-- A checked sum is there exactly if it fits. -/
theorem isSome_checkedAdd : (checkedAdd a b).isSome ↔ a.toNat + b.toNat < 2 ^ 64 := by
  unfold checkedAdd
  split_ifs with hlt
  · exact iff_of_true rfl hlt
  · exact iff_of_false Bool.false_ne_true hlt

/-- A checked remainder is there exactly if the divisor is not 0. -/
theorem isSome_checkedRem : (checkedRem a b).isSome ↔ b ≠ 0 := by
  unfold checkedRem
  split_ifs with hzero
  · exact iff_of_false Bool.false_ne_true fun hne => hne hzero
  · exact iff_of_true rfl hzero

end

/-! ## Agreement with the wrapping operations -/

section

variable {a b c : UInt64}

/-- A value that is there is the value. -/
theorem eq_of_ite_eq_some {p : Prop} [Decidable p]
    (h : (if p then some a else none) = some c) : a = c := by
  split_ifs at h with hp
  exact Option.some.inj h

/-- Where a checked operation gives a value, the wrapping one gives the same. -/
theorem eq_of_checkedAdd (h : checkedAdd a b = some c) : a + b = c := eq_of_ite_eq_some h

theorem eq_of_checkedMul (h : checkedMul a b = some c) : a * b = c := eq_of_ite_eq_some h

theorem eq_of_checkedDiv (h : checkedDiv a b = some c) : a / b = c := by
  rw [checkedDiv, ← ite_not] at h
  exact eq_of_ite_eq_some h

theorem eq_of_checkedRem (h : checkedRem a b = some c) : a % b = c := by
  rw [checkedRem, ← ite_not] at h
  exact eq_of_ite_eq_some h

end

/-! ## Sums and products that fit -/

section

variable {a b : UInt64}

/-- A sum that fits does not wrap. -/
theorem toNat_add_of_lt (h : a.toNat + b.toNat < 2 ^ 64) :
    (a + b).toNat = a.toNat + b.toNat := by
  rw [UInt64.toNat_add, Nat.mod_eq_of_lt h]

/-- Nor does a product. -/
theorem toNat_mul_of_lt (h : a.toNat * b.toNat < 2 ^ 64) :
    (a * b).toNat = a.toNat * b.toNat := by
  rw [UInt64.toNat_mul, Nat.mod_eq_of_lt h]

end

end UInt64
