/-
# Addresses in text

An address is a string of hexadecimal digits, after a `0x` that may be left out; it is aligned at
the right in its 32 bytes.  There are two parsers of it, for the settlements and for the setup.
Both accept the strings of at most 64 digits and give the number that the digits write, so they
are one function (`parseAddress_agrees`).
-/
import DeadmktNode.EventDecoding
import DeadmktNode.FundingSetup
import DeadmktNode.Settlement

/-- The bytes of an account address. -/
abbrev AccountAddress := Vector UInt8 32

/-! ## Parsing -/

/-- The text without a `0x` at its start. -/
def stripHex : List Char → List Char
  | '0' :: 'x' :: rest => rest
  | s => s

/-- Pad a text of an odd number of bytes with a zero. -/
def padEven (s : List Char) : List Char :=
  if (s.map Char.utf8Size).sum % 2 ≠ 0 then '0' :: s else s

/-- Align bytes at the right. -/
def AccountAddress.ofBytes (bytes : Bytes) (h : bytes.length ≤ 32) : AccountAddress :=
  ⟨(List.replicate (32 - bytes.length) 0 ++ bytes).toArray, by simp; omega⟩

/-- Parse an address: what is not hexadecimal or too long becomes an error. -/
def parseAddressWith {ε : Type} (hex : HexCrate) (invalidHex tooLong : String → ε)
    (addr : String) : Except ε AccountAddress :=
  match hex.decode (String.ofList (padEven (stripHex addr.toList))) with
  | .error e => .error (invalidHex e)
  | .ok bytes =>
      if h : bytes.length ≤ 32 then .ok (.ofBytes bytes h)
      else .error (tooLong ("address too long: " ++ toString bytes.length ++ " bytes"))

/-- The parser of the settlements. -/
def Settlement.parseAddress (hex : HexCrate) : String → Except SettlementError AccountAddress :=
  parseAddressWith hex .invalidAddress .invalidAddress

/-- The parser of the setup. -/
def SetupBridge.parseAddress (hex : HexCrate) : String → Except Setup.SetupError AccountAddress :=
  parseAddressWith hex (fun e => .chainError ("invalid address hex: " ++ e)) .chainError

/-! ## Digits and bytes -/

/-- What is decoded has digits only, two for each byte, and writes the number of the bytes. -/
theorem hexDecode_sound {s : List Char} {bs : Bytes} (h : hexDecode s = some bs) :
    (∀ c ∈ s, digitVal c < 16) ∧ s.length = 2 * bs.length ∧
      numeral 16 digitVal s = numeral 256 UInt8.toNat bs := by
  induction s using hexDecode.induct generalizing bs with
  | case1 =>
      obtain rfl := Option.some.inj h
      exact ⟨nofun, rfl, rfl⟩
  | case2 c => cases h
  | case3 hi lo rest hdigits ih =>
      rw [hexDecode, if_pos hdigits] at h
      obtain ⟨bs', hrest, rfl⟩ := Option.map_eq_some_iff.mp h
      obtain ⟨hall, hlength, hvalue⟩ := ih hrest
      refine ⟨?_, ?_, ?_⟩
      · rintro c (_ | ⟨_, _ | ⟨_, hc⟩⟩)
        · exact hdigits.1
        · exact hdigits.2
        · exact hall c hc
      · rw [List.length_cons, List.length_cons, List.length_cons, hlength]
        omega
      · have hbyte : (UInt8.ofNat (16 * digitVal hi + digitVal lo)).toNat
            = 16 * digitVal hi + digitVal lo := UInt8.toNat_ofNat_of_lt' (show _ < 2 ^ 8 by omega)
        have hpow : 16 ^ rest.length = 256 ^ bs'.length := by
          rw [hlength, Nat.pow_mul]
        rw [numeral_cons, numeral_cons, numeral_cons, hbyte, hvalue, List.length_cons, hpow.symm,
          Nat.pow_succ]
        ring
  | case4 hi lo rest hdigits =>
      rw [hexDecode, if_neg hdigits] at h
      cases h

/-- An even number of digits is decoded. -/
theorem hexDecode_complete {s : List Char} (hall : ∀ c ∈ s, digitVal c < 16)
    (heven : s.length % 2 = 0) : ∃ bs, hexDecode s = some bs := by
  induction s using hexDecode.induct with
  | case1 => exact ⟨[], rfl⟩
  | case2 c => exact absurd heven (by simp)
  | case3 hi lo rest hdigits ih =>
      rw [List.length_cons, List.length_cons] at heven
      obtain ⟨bs, hrest⟩ := ih (fun c hc => hall c (.tail _ (.tail _ hc))) (by omega)
      rw [hexDecode, if_pos hdigits, hrest]
      exact ⟨_, rfl⟩
  | case4 hi lo rest hdigits =>
      exact absurd ⟨hall hi (.head _), hall lo (.tail _ (.head _))⟩ hdigits

/-! ## What the parsers accept -/

/-- The number of an address. -/
def AccountAddress.value (a : AccountAddress) : ℕ := numeral 256 UInt8.toNat a.toList

/-- Addresses with one number are the same. -/
theorem AccountAddress.value_inj {a b : AccountAddress} : a.value = b.value ↔ a = b := by
  have hbyte : ∀ bs : Bytes, ∀ b ∈ bs, UInt8.toNat b < 256 := fun _ b _ => b.toNat_lt
  have hinjective : Function.Injective UInt8.toNat := fun _ _ h => UInt8.toNat_inj.mp h
  have hlength : a.toList.length = b.toList.length := by simp
  rw [value, value, numeral_inj (by decide) hinjective (hbyte _) (hbyte _) hlength]
  exact Vector.toList_inj

/-- Aligned at the right, bytes keep their number. -/
theorem AccountAddress.value_ofBytes {bytes : Bytes} (h : bytes.length ≤ 32) :
    (AccountAddress.ofBytes bytes h).value = numeral 256 UInt8.toNat bytes := by
  have hzero : UInt8.toNat 0 = 0 := rfl
  exact numeral_replicate_append hzero _ _

/-- The digits of an address: what is left without the `0x`. -/
def addressDigits (addr : String) : List Char := stripHex addr.toList

/-- The number that they write. -/
def addressNumber (addr : String) : ℕ := numeral 16 digitVal (addressDigits addr)

/-- At most 64 hexadecimal digits. -/
def IsAddress (addr : String) : Prop :=
  (∀ c ∈ addressDigits addr, digitVal c < 16) ∧ (addressDigits addr).length ≤ 64

/-- A digit is one byte. -/
theorem utf8Size_of_digit {c : Char} (h : digitVal c < 16) : c.utf8Size = 1 := by
  have hn : c.val.toNat = c.toNat := rfl
  unfold digitVal Char.isDigit Char.isLower Char.isUpper at h
  simp only [Bool.and_eq_true, decide_eq_true_eq, ge_iff_le, UInt32.le_iff_toNat_le, hn,
    Char.reduceVal, UInt32.reduceToNat] at h
  rw [Char.utf8Size_eq_one_iff, UInt32.le_iff_toNat_le, hn]
  show c.toNat ≤ 127
  split_ifs at h <;> omega

/-- Digits are padded to an even number of digits of the same number. -/
theorem padEven_of_digits {s : List Char} (h : ∀ c ∈ s, digitVal c < 16) :
    (∀ c ∈ padEven s, digitVal c < 16) ∧ (padEven s).length = 2 * ((s.length + 1) / 2) ∧
      numeral 16 digitVal (padEven s) = numeral 16 digitVal s := by
  have hsum : (s.map Char.utf8Size).sum = s.length := by
    rw [List.map_congr_left (g := fun _ => 1) fun c hc => utf8Size_of_digit (h c hc)]
    simp
  rw [padEven, hsum]
  split_ifs with hodd
  · refine ⟨?_, ?_, ?_⟩
    · rintro c (_ | ⟨_, hc⟩)
      · decide
      · exact h c hc
    · rw [List.length_cons]
      omega
    · have hzero : digitVal '0' = 0 := rfl
      exact numeral_replicate_append hzero 1 s
  · exact ⟨h, by omega, rfl⟩

theorem mem_padEven {s : List Char} {c : Char} (hc : c ∈ s) : c ∈ padEven s := by
  unfold padEven
  split_ifs
  · exact .tail _ hc
  · exact hc

section

variable {ε : Type} (hex : HexCrate) (invalidHex tooLong : String → ε) {addr : String}

/-- A string of at most 64 digits is parsed as the address of their number, -/
theorem parseAddressWith_of_isAddress (h : IsAddress addr) :
    ∃ a, parseAddressWith hex invalidHex tooLong addr = .ok a ∧ a.value = addressNumber addr := by
  obtain ⟨hdigits, hshort⟩ := h
  obtain ⟨hall, hlength, hvalue⟩ := padEven_of_digits hdigits
  obtain ⟨bytes, hbytes⟩ := hexDecode_complete hall (by omega)
  obtain ⟨-, htwice, hnumber⟩ := hexDecode_sound hbytes
  have hdecode : hex.decode (String.ofList (padEven (stripHex addr.toList))) = .ok bytes := by
    rw [hex.decode_eq_ok_iff, String.toList_ofList]
    exact hbytes
  have hle : bytes.length ≤ 32 := by omega
  refine ⟨.ofBytes bytes hle, ?_, ?_⟩
  · rw [parseAddressWith, hdecode]
    exact dif_pos hle
  · rw [AccountAddress.value_ofBytes, ← hnumber, hvalue]
    rfl

/-- and every other string is an error. -/
theorem parseAddressWith_of_not_isAddress (h : ¬ IsAddress addr) :
    ∃ e, parseAddressWith hex invalidHex tooLong addr = .error e := by
  unfold parseAddressWith
  cases hdecode : hex.decode (String.ofList (padEven (stripHex addr.toList))) with
  | error e => exact ⟨_, rfl⟩
  | ok bytes =>
      rw [hex.decode_eq_ok_iff, String.toList_ofList] at hdecode
      obtain ⟨hall, htwice, -⟩ := hexDecode_sound hdecode
      have hdigits : ∀ c ∈ addressDigits addr, digitVal c < 16 :=
        fun c hc => hall c (mem_padEven hc)
      obtain ⟨-, hlength, -⟩ := padEven_of_digits hdigits
      have hlong : ¬ bytes.length ≤ 32 := by
        intro hle
        refine h ⟨hdigits, ?_⟩
        unfold addressDigits at hlength ⊢
        omega
      exact ⟨_, dif_neg hlong⟩

/-- **What a parser accepts.**  The strings of at most 64 digits, as the address with their
number. -/
theorem parseAddressWith_eq_ok_iff {a : AccountAddress} :
    parseAddressWith hex invalidHex tooLong addr = .ok a ↔
      IsAddress addr ∧ addressNumber addr = a.value := by
  constructor
  · intro hok
    by_cases h : IsAddress addr
    · obtain ⟨b, hb, hvalue⟩ := parseAddressWith_of_isAddress hex invalidHex tooLong h
      rw [hb] at hok
      obtain rfl := Except.ok.inj hok
      exact ⟨h, hvalue.symm⟩
    · obtain ⟨e, he⟩ := parseAddressWith_of_not_isAddress hex invalidHex tooLong h
      rw [he] at hok
      cases hok
  · rintro ⟨h, hnumber⟩
    obtain ⟨b, hb, hvalue⟩ := parseAddressWith_of_isAddress hex invalidHex tooLong h
    rw [hb, AccountAddress.value_inj.mp (hvalue.trans hnumber)]

end

/-! ## One function -/

/-- The digits of an address, of which any number of leading zeros is left out, are an address
with its number. -/
theorem isAddress_of_hexDecode {a : AccountAddress} {k : ℕ} {ds : List Char}
    (h : hexDecode (List.replicate k '0' ++ ds) = some a.toList) :
    IsAddress (String.ofList ('0' :: 'x' :: ds)) ∧
      addressNumber (String.ofList ('0' :: 'x' :: ds)) = a.value := by
  have hdigits : addressDigits (String.ofList ('0' :: 'x' :: ds)) = ds := by
    rw [addressDigits, String.toList_ofList]
    rfl
  have hzero : digitVal '0' = 0 := rfl
  obtain ⟨hall, hlength, hvalue⟩ := hexDecode_sound h
  rw [IsAddress, addressNumber, hdigits]
  refine ⟨⟨fun c hc => hall c (List.mem_append_right _ hc), ?_⟩, ?_⟩
  · rw [List.length_append, Vector.length_toList] at hlength
    omega
  · rw [AccountAddress.value, ← hvalue, numeral_replicate_append hzero]

/-- **Address parsing is one function.**  The two parsers fail on the same strings and give the
same address on the others.  From the digits of an address, of either case, after `0x` and without
any number of leading zeros, that address is parsed.  Two strings that are accepted give one
address exactly if their digits write one number. -/
theorem parseAddress_agrees (hex : HexCrate) :
    (∀ addr, (∃ a, Settlement.parseAddress hex addr = .ok a ∧
          SetupBridge.parseAddress hex addr = .ok a) ∨
        ∃ e e', Settlement.parseAddress hex addr = .error e ∧
          SetupBridge.parseAddress hex addr = .error e') ∧
      (∀ (a : AccountAddress) k ds, hexDecode (List.replicate k '0' ++ ds) = some a.toList →
        Settlement.parseAddress hex (String.ofList ('0' :: 'x' :: ds)) = .ok a) ∧
      ∀ addr addr' a a', Settlement.parseAddress hex addr = .ok a →
        Settlement.parseAddress hex addr' = .ok a' →
          (a = a' ↔ addressNumber addr = addressNumber addr') := by
  refine ⟨?_, ?_, ?_⟩
  · intro addr
    by_cases h : IsAddress addr
    · obtain ⟨a, ha, hvalue⟩ := parseAddressWith_of_isAddress hex _ _ h
      exact .inl ⟨a, ha, (parseAddressWith_eq_ok_iff hex _ _).mpr ⟨h, hvalue.symm⟩⟩
    · obtain ⟨e, he⟩ := parseAddressWith_of_not_isAddress hex _ _ h
      obtain ⟨e', he'⟩ := parseAddressWith_of_not_isAddress hex _ _ h
      exact .inr ⟨e, e', he, he'⟩
  · intro a k ds h
    exact (parseAddressWith_eq_ok_iff hex _ _).mpr (isAddress_of_hexDecode h)
  · intro addr addr' a a' ha ha'
    have hnumber := ((parseAddressWith_eq_ok_iff hex _ _).mp ha).2
    have hnumber' := ((parseAddressWith_eq_ok_iff hex _ _).mp ha').2
    rw [hnumber, hnumber', AccountAddress.value_inj]

/-- Of the digits of the address 1 all zeros may be left out. -/
theorem parseAddress_agrees_one :
    Settlement.parseAddress .reference "0x1" = .ok (.ofBytes [1] (by decide)) :=
  (parseAddress_agrees .reference).2.1 (.ofBytes [1] (by decide)) 63 ['1'] (by decide)
