/-
# Integers in text

The reading of a 64-bit number from text: one or more digits of a radix, after a `+` that may
be left out, whose value fits (`fromStrRadix_eq_some_iff`).  The digits of a number are read
back as that number (`fromStrRadix_toDigits`).
-/
import DeadmktNode.Numerals

/-- The value of a digit, of any radix up to 36; what is no digit has the value 36. -/
def digitVal (c : Char) : ℕ :=
  if c.isDigit then c.toNat - '0'.toNat
  else if c.isLower then c.toNat - 'a'.toNat + 10
  else if c.isUpper then c.toNat - 'A'.toNat + 10
  else 36

/-- Digits of a radix that write a number. -/
structure Writes (radix : ℕ) (digits : List Char) (n : ℕ) : Prop where
  ne_nil : digits ≠ []
  digit : ∀ c ∈ digits, digitVal c < radix
  value : numeral radix digitVal digits = n

instance (radix : ℕ) (digits : List Char) (n : ℕ) : Decidable (Writes radix digits n) :=
  decidable_of_iff (digits ≠ [] ∧ digits.all (fun c => digitVal c < radix) = true ∧
      numeral radix digitVal digits = n) <| by
    rw [List.all_eq_true]
    simp only [decide_eq_true_eq]
    exact ⟨fun h => ⟨h.1, h.2.1, h.2.2⟩, fun h => ⟨h.ne_nil, h.digit, h.value⟩⟩

/-- Text that spells a 64-bit number: digits of a radix, after a `+` that may be left out. -/
def SpellsIn (radix : ℕ) (s : List Char) (n : UInt64) : Prop :=
  ∃ digits, (s = digits ∨ s = '+' :: digits) ∧ Writes radix digits n.toNat

/-- The text without its sign. -/
def unsigned (s : List Char) : List Char := if s.head? = some '+' then s.tail else s

/-- `u64::from_str_radix`; with radix 10 also `str::parse::<u64>`. -/
def fromStrRadix (radix : ℕ) (s : List Char) : Option UInt64 :=
  let digits := unsigned s
  if digits.isEmpty ∨ ¬ digits.all (fun c => digitVal c < radix) then none
  else if numeral radix digitVal digits < 2 ^ 64 then
    some (UInt64.ofNat (numeral radix digitVal digits))
  else none

example : fromStrRadix 16 "8000f".toList = some 524303 := by decide +kernel

section

variable {radix : ℕ} {s : List Char} {n : UInt64}

/-- What is left after a sign, if the rest are digits. -/
theorem unsigned_eq_iff {digits : List Char} (hradix : radix ≤ 36)
    (hdigit : ∀ c ∈ digits, digitVal c < radix) (hne : digits ≠ []) :
    unsigned s = digits ↔ s = digits ∨ s = '+' :: digits := by
  have hsign : digits.head? ≠ some '+' := by
    intro hhead
    have hplus : digitVal '+' = 36 := by decide
    have := hdigit '+' (List.mem_of_mem_head? hhead)
    omega
  unfold unsigned
  cases s with
  | nil => simp
  | cons c rest =>
      by_cases hc : c = '+'
      · subst hc
        simp only [List.head?_cons, if_true, List.tail_cons, List.cons.injEq, true_and]
        refine ⟨.inr, fun h => h.resolve_left ?_⟩
        rintro rfl
        exact hsign rfl
      · have hhead : (c :: rest).head? ≠ some '+' := by simpa using hc
        rw [if_neg hhead]
        refine ⟨.inl, fun h => h.resolve_right fun heq => hc (List.cons.inj heq).1⟩

/-- A text is read as the number that it spells. -/
theorem fromStrRadix_eq_some_iff (hradix : radix ≤ 36) :
    fromStrRadix radix s = some n ↔ SpellsIn radix s n := by
  have hn := n.toNat_lt
  unfold fromStrRadix
  dsimp only
  constructor
  · intro h
    split_ifs at h with hbad hlt
    rw [not_or, not_not, List.all_eq_true] at hbad
    obtain ⟨hempty, hall⟩ := hbad
    have hdigit := fun c hc => of_decide_eq_true (hall c hc)
    have hne := fun hnil => hempty (List.isEmpty_iff.mpr hnil)
    refine ⟨_, (unsigned_eq_iff hradix hdigit hne).mp rfl, hne, hdigit, ?_⟩
    rw [← Option.some.inj h, UInt64.toNat_ofNat_of_lt' hlt]
  · rintro ⟨digits, hs, hne, hdigit, hvalue⟩
    rw [(unsigned_eq_iff hradix hdigit hne).mpr hs, hvalue, if_pos hn, if_neg,
      UInt64.ofNat_toNat]
    rw [not_or, not_not, List.all_eq_true]
    exact ⟨fun hempty => hne (List.isEmpty_iff.mp hempty),
      fun c hc => decide_eq_true (hdigit c hc)⟩

theorem digitVal_digitChar : ∀ d < 16, digitVal d.digitChar = d := by decide

/-- The digits of a number write it. -/
theorem writes_toDigits (hlow : 1 < radix) (hhigh : radix ≤ 16) (m : ℕ) :
    Writes radix (Nat.toDigits radix m) m := by
  induction m using Nat.strong_induction_on with
  | h m ih =>
      by_cases hm : m < radix
      · have hval := digitVal_digitChar m (by omega)
        rw [Nat.toDigits_of_lt_base hm]
        refine ⟨List.cons_ne_nil _ _, ?_, ?_⟩
        · rintro c hc
          rw [List.mem_singleton.mp hc, hval]
          exact hm
        · simp [numeral, hval]
      · have hmod := Nat.mod_lt m (show radix > 0 by omega)
        have hval := digitVal_digitChar (m % radix) (by omega)
        obtain ⟨-, hdigit, hvalue⟩ := ih (m / radix) (Nat.div_lt_self (by omega) hlow)
        rw [Nat.toDigits_of_base_le hlow (by omega)]
        refine ⟨by simp, ?_, ?_⟩
        · intro c hc
          rcases List.mem_append.mp hc with hleading | hlast
          · exact hdigit c hleading
          · rw [List.mem_singleton.mp hlast, hval]
            exact hmod
        · rw [numeral_append, hvalue, List.length_singleton, pow_one]
          simp only [numeral, List.foldl_cons, List.foldl_nil, hval, mul_zero, zero_add]
          exact Nat.div_add_mod' m radix

/-- **Round trip.**  The digits of a number are read back as the number. -/
theorem fromStrRadix_toDigits (hlow : 1 < radix) (hhigh : radix ≤ 16) (n : UInt64) :
    fromStrRadix radix (Nat.toDigits radix n.toNat) = some n :=
  (fromStrRadix_eq_some_iff (by omega)).mpr ⟨_, .inl rfl, writes_toDigits hlow hhigh n.toNat⟩

/-- The characters of a number. -/
theorem SpellsIn.char {c : Char} (h : SpellsIn radix s n) (hc : c ∈ s) :
    digitVal c < radix ∨ c = '+' := by
  obtain ⟨digits, rfl | rfl, hwrites⟩ := h
  · exact .inl (hwrites.digit c hc)
  · rcases List.mem_cons.mp hc with rfl | hdigit
    · exact .inr rfl
    · exact .inl (hwrites.digit c hdigit)

end
