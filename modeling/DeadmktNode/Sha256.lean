/-
# SHA-256

The secure hash algorithm with a 256-bit digest over byte strings.  Words are
natural numbers below `2^32`, so that digests can be computed by the kernel; `force`
only fixes the order of evaluation.
-/
import DeadmktNode.Bcs
import Mathlib.Data.List.TakeDrop

/-- A 32-byte digest (`[u8; 32]`). -/
abbrev Hash32 := Vector UInt8 32

namespace Sha256

/-- Words are reduced modulo this. -/
def modulus : ℕ := 4294967296

/-- Apply `k` to the evaluated `n`. -/
def force {α : Type*} (n : ℕ) (k : ℕ → α) : α :=
  match n with
  | 0 => k 0
  | m + 1 => k (m + 1)

/-! ## Functions and constants -/

/-- Rotate a word right. -/
def rotr (x n : ℕ) : ℕ := ((x >>> n) ||| (x <<< (32 - n))) % modulus

def bigSigma0 (x : ℕ) : ℕ := rotr x 2 ^^^ rotr x 13 ^^^ rotr x 22

def bigSigma1 (x : ℕ) : ℕ := rotr x 6 ^^^ rotr x 11 ^^^ rotr x 25

def smallSigma0 (x : ℕ) : ℕ := rotr x 7 ^^^ rotr x 18 ^^^ (x >>> 3)

def smallSigma1 (x : ℕ) : ℕ := rotr x 17 ^^^ rotr x 19 ^^^ (x >>> 10)

def ch (x y z : ℕ) : ℕ := (x &&& y) ^^^ ((modulus - 1 - x) &&& z)

def maj (x y z : ℕ) : ℕ := (x &&& y) ^^^ (x &&& z) ^^^ (y &&& z)

/-- The initial hash value. -/
def initial : List ℕ :=
  [0x6a09e667, 0xbb67ae85, 0x3c6ef372, 0xa54ff53a, 0x510e527f, 0x9b05688c, 0x1f83d9ab,
    0x5be0cd19]

/-- The 64 round constants. -/
def roundConstants : List ℕ := [
  0x428a2f98, 0x71374491, 0xb5c0fbcf, 0xe9b5dba5, 0x3956c25b, 0x59f111f1, 0x923f82a4, 0xab1c5ed5,
  0xd807aa98, 0x12835b01, 0x243185be, 0x550c7dc3, 0x72be5d74, 0x80deb1fe, 0x9bdc06a7, 0xc19bf174,
  0xe49b69c1, 0xefbe4786, 0x0fc19dc6, 0x240ca1cc, 0x2de92c6f, 0x4a7484aa, 0x5cb0a9dc, 0x76f988da,
  0x983e5152, 0xa831c66d, 0xb00327c8, 0xbf597fc7, 0xc6e00bf3, 0xd5a79147, 0x06ca6351, 0x14292967,
  0x27b70a85, 0x2e1b2138, 0x4d2c6dfc, 0x53380d13, 0x650a7354, 0x766a0abb, 0x81c2c92e, 0x92722c85,
  0xa2bfe8a1, 0xa81a664b, 0xc24b8b70, 0xc76c51a3, 0xd192e819, 0xd6990624, 0xf40e3585, 0x106aa070,
  0x19a4c116, 0x1e376c08, 0x2748774c, 0x34b0bcb5, 0x391c0cb3, 0x4ed8aa4a, 0x5b9cca4f, 0x682e6ff3,
  0x748f82ee, 0x78a5636f, 0x84c87814, 0x8cc70208, 0x90befffa, 0xa4506ceb, 0xbef9a3f7, 0xc67178f2]

/-! ## Compression -/

/-- The message schedule: `n` further words computed from the window of the last 16. -/
def schedule : ℕ → List ℕ → List ℕ
  | 0, w => w
  | n + 1, w =>
      force ((smallSigma1 (w.getD 14 0) + w.getD 9 0 + smallSigma0 (w.getD 1 0) + w.getD 0 0)
          % modulus) fun next =>
        w.getD 0 0 :: schedule n (w.tail ++ [next])

/-- The rounds, over the pairs of a round constant and a schedule word. -/
def rounds : List (ℕ × ℕ) → ℕ → ℕ → ℕ → ℕ → ℕ → ℕ → ℕ → ℕ → List ℕ
  | [], a, b, c, d, e, f, g, h => [a, b, c, d, e, f, g, h]
  | (k, w) :: l, a, b, c, d, e, f, g, h =>
      force (h + bigSigma1 e + ch e f g + k + w) fun t₁ =>
        force ((t₁ + bigSigma0 a + maj a b c) % modulus) fun a' =>
          force ((d + t₁) % modulus) fun e' =>
            rounds l a' a b c e' e f g

/-- The big-endian number written by `bs`. -/
def natOfBe (bs : Bytes) : ℕ := bs.foldl (fun n b => n * 256 + b.toNat) 0

/-- The `w` big-endian bytes of `n`. -/
def natToBe (w n : ℕ) : Bytes := (natToLe w n).reverse

/-- The first `n` words of a block. -/
def words : ℕ → Bytes → List ℕ
  | 0, _ => []
  | n + 1, bs => natOfBe (bs.take 4) :: words n (bs.drop 4)

/-- Compress one 64-byte block into the hash value. -/
def compress (h : List ℕ) (block : Bytes) : List ℕ :=
  let w := schedule 48 (words 16 block)
  let r := rounds (roundConstants.zip w) (h.getD 0 0) (h.getD 1 0) (h.getD 2 0) (h.getD 3 0)
    (h.getD 4 0) (h.getD 5 0) (h.getD 6 0) (h.getD 7 0)
  List.zipWith (fun x y => (x + y) % modulus) h r

/-- Compress the first `n` blocks. -/
def compressBlocks : ℕ → List ℕ → Bytes → List ℕ
  | 0, h, _ => h
  | n + 1, h, bs => compressBlocks n (compress h (bs.take 64)) (bs.drop 64)

/-! ## The hash function -/

/-- Padding: a one bit, zeros, and the length in bits, up to a multiple of 64 bytes. -/
def pad (m : Bytes) : Bytes :=
  m ++ 0x80 :: List.replicate ((119 - m.length % 64) % 64) 0 ++ natToBe 8 (8 * m.length)

/-- The first 32 bytes of a string, padded with zeros. -/
def toHash32 (bs : Bytes) : Hash32 :=
  ⟨(bs.takeD 32 0).toArray, List.size_toArray.trans (List.takeD_length 32 bs 0)⟩

/-- A hash is made of its own bytes. -/
@[simp] theorem toHash32_toList (hash : Hash32) : toHash32 hash.toList = hash := by
  apply Vector.toList_inj.mp
  rw [toHash32, Vector.toList_mk, List.toList_toArray, List.takeD_eq_take _ (by simp)]
  simp

/-- The digest of `m`. -/
def digest (m : Bytes) : Hash32 :=
  let p := pad m
  toHash32 ((compressBlocks (p.length / 64) initial p).flatMap (natToBe 4))

/-- The digest of `abc`. -/
example : (digest [97, 98, 99]).toList =
    [0xba, 0x78, 0x16, 0xbf, 0x8f, 0x01, 0xcf, 0xea, 0x41, 0x41, 0x40, 0xde, 0x5d, 0xae, 0x22,
      0x23, 0xb0, 0x03, 0x61, 0xa3, 0x96, 0x17, 0x7a, 0x9c, 0xb4, 0x10, 0xff, 0x61, 0xf2, 0x00,
      0x15, 0xad] := by
  decide +kernel

end Sha256
