/-
# Text of byte strings

Hexadecimal, with the crate that the node takes it from, and the lossy UTF-8 reading of a byte
string, in which every maximal ill-formed part becomes one replacement character.
-/
import DeadmktNode.Bcs
import DeadmktNode.IntegerText

/-! ## Hexadecimal -/

/-- The lower-case hexadecimal digit of a number below 16. -/
def hexDigit (n : ℕ) : Char := "0123456789abcdef".toList.getD n '0'

/-- Two lower-case digits for every byte. -/
def hexEncode (bs : Bytes) : String :=
  String.ofList (bs.flatMap fun b => [hexDigit (b.toNat / 16), hexDigit (b.toNat % 16)])

theorem hexDigit_inj : ∀ m < 16, ∀ n < 16, hexDigit m = hexDigit n → m = n := by
  decide +kernel

/-- Different byte strings have different hexadecimal texts. -/
theorem hexEncode_injective : Function.Injective hexEncode := by
  intro xs ys h
  replace h := String.ofList_injective h
  induction xs generalizing ys with
  | nil =>
      cases ys with
      | nil => rfl
      | cons y ys => cases h
  | cons x xs ih =>
      cases ys with
      | nil => cases h
      | cons y ys =>
          rw [List.flatMap_cons, List.flatMap_cons, List.cons_append, List.cons_append,
            List.cons_append, List.cons_append, List.nil_append, List.nil_append,
            List.cons.injEq, List.cons.injEq] at h
          have hx := x.toNat_lt
          have hy := y.toNat_lt
          have hhigh := hexDigit_inj _ (by omega) _ (by omega) h.1
          have hlow := hexDigit_inj _ (by omega) _ (by omega) h.2.1
          have hxy : x = y := UInt8.toNat_inj.mp (by omega)
          rw [hxy, ih h.2.2]

/-- The bytes that digits of either case write, two for every byte. -/
def hexDecode : List Char → Option Bytes
  | [] => some []
  | [_] => none
  | hi :: lo :: rest =>
      if digitVal hi < 16 ∧ digitVal lo < 16 then
        (hexDecode rest).map (UInt8.ofNat (16 * digitVal hi + digitVal lo) :: ·)
      else none

theorem digitVal_hexDigit : ∀ n < 16, digitVal (hexDigit n) = n := by decide

/-- **Round trip.**  The hexadecimal digits of a byte string are decoded as the bytes. -/
theorem hexDecode_hexEncode (bs : Bytes) : hexDecode (hexEncode bs).toList = some bs := by
  rw [hexEncode, String.toList_ofList]
  induction bs with
  | nil => rfl
  | cons b bs ih =>
      have hb := b.toNat_lt
      have hhi := digitVal_hexDigit (b.toNat / 16) (by omega)
      have hlo := digitVal_hexDigit (b.toNat % 16) (by omega)
      rw [List.flatMap_cons, List.cons_append, List.cons_append, List.nil_append, hexDecode, ih,
        if_pos ⟨by omega, by omega⟩, hhi, hlo, Nat.div_add_mod, Option.map_some]
      simp

/-- The crate `hex`, with its documented behaviour: `hex::encode` writes lower-case digits, and
`hex::decode` accepts an even number of digits of either case; its error is a text. -/
class HexCrate where
  encode : Bytes → String
  decode : String → Except String Bytes
  encode_eq : ∀ bs, encode bs = hexEncode bs
  decode_eq_ok_iff : ∀ s bs, decode s = .ok bs ↔ hexDecode s.toList = some bs

namespace HexCrate

/-- Different byte strings are written by different texts. -/
theorem encode_injective [HexCrate] : Function.Injective encode := by
  intro xs ys h
  rw [encode_eq, encode_eq] at h
  exact hexEncode_injective h

/-- **Round trip.**  What was encoded is decoded. -/
theorem decode_encode [HexCrate] (bs : Bytes) : decode (encode bs) = .ok bs := by
  rw [decode_eq_ok_iff, encode_eq]
  exact hexDecode_hexEncode bs

/-- The encoder and decoder of this project; the decoder gives no reason for an error. -/
@[reducible] def reference : HexCrate where
  encode := hexEncode
  decode s :=
    match hexDecode s.toList with
    | some bytes => .ok bytes
    | none => .error ""
  encode_eq _ := rfl
  decode_eq_ok_iff s bs := by
    cases hexDecode s.toList with
    | none => exact iff_of_false nofun nofun
    | some bytes => rw [Except.ok.injEq, Option.some.injEq]

end HexCrate

/-! ## Lossy UTF-8 -/

/-- A continuation byte. -/
def isContinuation (b : UInt8) : Bool := 0x80 ≤ b.toNat && b.toNat < 0xC0

/-- May `second` follow the first byte `first` of a sequence of three or four bytes?
Overlong forms, surrogates and numbers past the last character are excluded. -/
def isSecondByte (first second : UInt8) : Bool :=
  if first.toNat = 0xE0 then 0xA0 ≤ second.toNat && second.toNat < 0xC0
  else if first.toNat = 0xED then 0x80 ≤ second.toNat && second.toNat < 0xA0
  else if first.toNat = 0xF0 then 0x90 ≤ second.toNat && second.toNat < 0xC0
  else if first.toNat = 0xF4 then 0x80 ≤ second.toNat && second.toNat < 0x90
  else isContinuation second

/-- The length in bytes and the character of the first chunk of a non-empty string:
one well-formed character, or the replacement character for a maximal ill-formed
part. -/
def firstChunk (b : UInt8) (rest : Bytes) : ℕ × Char :=
  let bad (n : ℕ) : ℕ × Char := (n, Char.ofNat 0xFFFD)
  let low (x : UInt8) : ℕ := x.toNat % 64
  if b.toNat < 0x80 then (1, Char.ofNat b.toNat)
  else if 0xC2 ≤ b.toNat ∧ b.toNat < 0xE0 then
    match rest with
    | b₁ :: _ =>
        if isContinuation b₁ then (2, Char.ofNat (b.toNat % 32 * 64 + low b₁)) else bad 1
    | [] => bad 1
  else if 0xE0 ≤ b.toNat ∧ b.toNat < 0xF0 then
    match rest with
    | b₁ :: b₂ :: _ =>
        if !isSecondByte b b₁ then bad 1
        else if !isContinuation b₂ then bad 2
        else (3, Char.ofNat (b.toNat % 16 * 4096 + low b₁ * 64 + low b₂))
    | [b₁] => if isSecondByte b b₁ then bad 2 else bad 1
    | [] => bad 1
  else if 0xF0 ≤ b.toNat ∧ b.toNat < 0xF5 then
    match rest with
    | b₁ :: b₂ :: b₃ :: _ =>
        if !isSecondByte b b₁ then bad 1
        else if !isContinuation b₂ then bad 2
        else if !isContinuation b₃ then bad 3
        else (4, Char.ofNat
          (b.toNat % 8 * 262144 + low b₁ * 4096 + low b₂ * 64 + low b₃))
    | [b₁, b₂] =>
        if !isSecondByte b b₁ then bad 1 else if isContinuation b₂ then bad 3 else bad 2
    | [b₁] => if isSecondByte b b₁ then bad 2 else bad 1
    | [] => bad 1
  else bad 1

/-- The characters of a byte string; `fuel` bounds their number. -/
def lossyChars : ℕ → Bytes → List Char
  | 0, _ => []
  | _, [] => []
  | fuel + 1, b :: rest =>
      let chunk := firstChunk b rest
      chunk.2 :: lossyChars fuel (rest.drop (chunk.1 - 1))

/-- `String::from_utf8_lossy`. -/
def fromUtf8Lossy (bs : Bytes) : String := String.ofList (lossyChars bs.length bs)

example : fromUtf8Lossy [69, 77, 77, 47, 75, 65, 89] = "EMM/KAY" := by decide +kernel

/-! ## Market symbols -/

/-- Split a symbol at its first `/` into base and quote token, as the run loop does;
without a `/` the whole is the base token. -/
def splitSymbol (symbol : String) : String × String :=
  let chars := symbol.toList
  if chars.contains '/' then
    (String.ofList (chars.takeWhile (· ≠ '/')),
      String.ofList ((chars.dropWhile (· ≠ '/')).drop 1))
  else (symbol, "UNKNOWN")

example : splitSymbol "EMM/KAY" = ("EMM", "KAY") := by decide +kernel
