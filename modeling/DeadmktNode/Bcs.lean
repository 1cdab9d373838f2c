/-
# Binary Canonical Serialization

A `Codec α` is a writer and a reader of values of type `α` that are inverse to each
other: what was written is read back with the following bytes left over, and what
is read was written by the writer, so that no value has two encodings.  Codecs for
integers, length-prefixed byte strings and pairs are given; those of structures are
built from them by `Codec.pair` and `Codec.iso`.

* integers are little-endian with a fixed width;
* a sequence is its length in ULEB128 followed by its elements, and a length above
  `2^31 - 1` is refused;
* a structure is the concatenation of its fields in declaration order.
-/
import Mathlib.Data.List.Basic
import Mathlib.Tactic.Ring

/-- A string of bytes (`Vec<u8>`, `&[u8]`). -/
abbrev Bytes := List UInt8

/-! ## Little-endian integers -/

/-- The `w` little-endian bytes of `n`. -/
def natToLe : ℕ → ℕ → Bytes
  | 0, _ => []
  | w + 1, n => UInt8.ofNat (n % 256) :: natToLe w (n / 256)

/-- The number written by little-endian bytes. -/
def natOfLe : Bytes → ℕ
  | [] => 0
  | b :: bs => b.toNat + 256 * natOfLe bs

@[simp] theorem length_natToLe (w n : ℕ) : (natToLe w n).length = w := by
  induction w generalizing n with
  | zero => rfl
  | succ w ih => rw [natToLe, List.length_cons, ih]

/-- Reading back what was written, modulo the width. -/
theorem natOfLe_natToLe (w n : ℕ) : natOfLe (natToLe w n) = n % 256 ^ w := by
  induction w generalizing n with
  | zero => simp [natToLe, natOfLe, Nat.mod_one]
  | succ w ih =>
      rw [natToLe, natOfLe, ih, UInt8.toNat_ofNat', Nat.mod_mod, pow_succ', Nat.mod_mul]

/-- Little-endian bytes are below the bound given by their number. -/
theorem natOfLe_lt (bs : Bytes) : natOfLe bs < 256 ^ bs.length := by
  induction bs with
  | nil => simp [natOfLe]
  | cons b bs ih =>
      have hb : b.toNat < 256 := b.toNat_lt
      rw [natOfLe, List.length_cons, pow_succ']
      omega

/-- Writing what was read gives the bytes back. -/
theorem natToLe_natOfLe (bs : Bytes) : natToLe bs.length (natOfLe bs) = bs := by
  induction bs with
  | nil => rfl
  | cons b bs ih =>
      have hb : b.toNat < 256 := b.toNat_lt
      rw [List.length_cons, natToLe, natOfLe]
      have h1 : (b.toNat + 256 * natOfLe bs) % 256 = b.toNat := by omega
      have h2 : (b.toNat + 256 * natOfLe bs) / 256 = natOfLe bs := by omega
      rw [h1, h2, ih, UInt8.ofNat_toNat]

/-- The 8 little-endian bytes of a `u64` (`to_le_bytes`). -/
def UInt64.toLeBytes (x : UInt64) : Bytes := natToLe 8 x.toNat

/-- The `u64` written by little-endian bytes (`from_le_bytes`). -/
def UInt64.ofLeBytes (bs : Bytes) : UInt64 := UInt64.ofNat (natOfLe bs)

@[simp] theorem UInt64.length_toLeBytes (x : UInt64) : x.toLeBytes.length = 8 :=
  length_natToLe 8 _

/-- **Round trip of `u64`.** -/
@[simp] theorem UInt64.ofLeBytes_toLeBytes (x : UInt64) :
    UInt64.ofLeBytes x.toLeBytes = x := by
  have hx : x.toNat < 256 ^ 8 := x.toNat_lt
  rw [UInt64.ofLeBytes, UInt64.toLeBytes, natOfLe_natToLe, Nat.mod_eq_of_lt hx,
    UInt64.ofNat_toNat]

/-- Eight bytes are the `to_le_bytes` of the number that they write. -/
theorem UInt64.toLeBytes_ofLeBytes {bs : Bytes} (h : bs.length = 8) :
    (UInt64.ofLeBytes bs).toLeBytes = bs := by
  have hlt : natOfLe bs < 2 ^ 64 := by
    have := natOfLe_lt bs
    rw [h] at this
    exact this
  rw [UInt64.toLeBytes, UInt64.ofLeBytes, UInt64.toNat_ofNat_of_lt' hlt, ← h,
    natToLe_natOfLe]

/-! ## ULEB128 -/

/-- ULEB128 digits of a length, low digits first; all but the last carry the
continuation bit. -/
def putUleb (n : ℕ) : Bytes :=
  if n < 128 then [UInt8.ofNat n] else UInt8.ofNat (n % 128 + 128) :: putUleb (n / 128)

/-- Read a ULEB128 number of at most `fuel` digits.  A leading (last) digit `0` after
a continuation is not canonical and is refused. -/
def getUleb : ℕ → Bytes → Option (ℕ × Bytes)
  | 0, _ => none
  | _ + 1, [] => none
  | fuel + 1, b :: bs =>
      if b.toNat < 128 then some (b.toNat, bs)
      else
        match getUleb fuel bs with
        | none => none
        | some (hi, rest) => if hi = 0 then none else some (b.toNat - 128 + 128 * hi, rest)

/-- A number of at most `fuel` digits is read back. -/
theorem getUleb_putUleb (fuel n : ℕ) (rest : Bytes) (h : n < 128 ^ (fuel + 1)) :
    getUleb (fuel + 1) (putUleb n ++ rest) = some (n, rest) := by
  induction fuel generalizing n with
  | zero =>
      have hn : n < 128 := by simpa using h
      rw [putUleb, if_pos hn]
      simp [getUleb, Nat.mod_eq_of_lt (show n < 256 by omega), hn]
  | succ fuel ih =>
      rw [putUleb]
      by_cases hn : n < 128
      · rw [if_pos hn]
        simp [getUleb, Nat.mod_eq_of_lt (show n < 256 by omega), hn]
      · have hdiv : n / 128 < 128 ^ (fuel + 1) := by
          rw [Nat.div_lt_iff_lt_mul (by norm_num), ← pow_succ]
          exact h
        have hb : (UInt8.ofNat (n % 128 + 128)).toNat = n % 128 + 128 := by
          rw [UInt8.toNat_ofNat', Nat.mod_eq_of_lt (by omega)]
        rw [if_neg hn, List.cons_append, getUleb, hb, if_neg (by omega), ih _ hdiv]
        have hne : n / 128 ≠ 0 := by omega
        simp only [hne, if_false]
        congr 2
        omega

/-- A number that is read has a bounded number of digits and is written as it was
read. -/
theorem putUleb_of_getUleb {fuel : ℕ} {bs rest : Bytes} {n : ℕ}
    (h : getUleb fuel bs = some (n, rest)) : bs = putUleb n ++ rest := by
  induction fuel generalizing bs n with
  | zero => simp [getUleb] at h
  | succ fuel ih =>
      cases bs with
      | nil => simp [getUleb] at h
      | cons b bs =>
          have hb256 : b.toNat < 256 := b.toNat_lt
          rw [getUleb] at h
          split_ifs at h with hb
          · obtain ⟨rfl, rfl⟩ := Prod.mk.inj (Option.some.inj h)
            rw [putUleb, if_pos hb, UInt8.ofNat_toNat, List.singleton_append]
          · cases hg : getUleb fuel bs with
            | none => rw [hg] at h; simp at h
            | some p =>
                obtain ⟨hi, tail⟩ := p
                rw [hg] at h
                dsimp only at h
                split_ifs at h with hhi
                obtain ⟨rfl, rfl⟩ := Prod.mk.inj (Option.some.inj h)
                have hmod : (b.toNat - 128 + 128 * hi) % 128 + 128 = b.toNat := by omega
                have hdiv : (b.toNat - 128 + 128 * hi) / 128 = hi := by omega
                rw [putUleb, if_neg (by omega), hmod, hdiv, UInt8.ofNat_toNat, ih hg,
                  List.cons_append]

/-! ## Codecs -/

/-- A writer and a reader that are inverse to each other.  `put` fails on a value
that has no encoding (a sequence that is too long). -/
structure Codec (α : Type*) where
  put : α → Option Bytes
  get : Bytes → Option (α × Bytes)
  get_put : ∀ {a bs}, put a = some bs → ∀ rest, get (bs ++ rest) = some (a, rest)
  put_of_get : ∀ {bs a rest}, get bs = some (a, rest) → ∃ b, put a = some b ∧ bs = b ++ rest

namespace Codec

variable {α β : Type*}

/-- Encode one value (`bcs::to_bytes`). -/
def toBytes (c : Codec α) (a : α) : Option Bytes := c.put a

/-- Decode one value and refuse bytes that are left over (`bcs::from_bytes`). -/
def fromBytes (c : Codec α) (bs : Bytes) : Option α :=
  match c.get bs with
  | some (a, []) => some a
  | _ => none

/-- **Round trip.**  What was encoded is decoded. -/
theorem fromBytes_toBytes (c : Codec α) {a : α} {bs : Bytes} (h : c.toBytes a = some bs) :
    c.fromBytes bs = some a := by
  have hget := c.get_put h []
  rw [List.append_nil] at hget
  rw [fromBytes, hget]

/-- **Canonicity.**  What is decoded is encoded by the bytes it was decoded from. -/
theorem toBytes_of_fromBytes (c : Codec α) {a : α} {bs : Bytes}
    (h : c.fromBytes bs = some a) : c.toBytes a = some bs := by
  unfold fromBytes at h
  split at h
  · rename_i a' hget
    obtain rfl := Option.some.inj h
    obtain ⟨b, hput, hbs⟩ := c.put_of_get hget
    rw [List.append_nil] at hbs
    rw [toBytes, hput, hbs]
  · simp at h

/-! ### Building blocks -/

/-- One byte. -/
def u8 : Codec UInt8 where
  put x := some [x]
  get
    | [] => none
    | b :: bs => some (b, bs)
  get_put := by
    intro a bs h rest
    obtain rfl := Option.some.inj h
    rfl
  put_of_get := by
    intro bs a rest h
    cases bs with
    | nil => simp at h
    | cons b bs =>
        obtain ⟨rfl, rfl⟩ := Prod.mk.inj (Option.some.inj h)
        exact ⟨[b], rfl, rfl⟩

/-- Exactly `n` bytes. -/
def fixed (n : ℕ) : Codec { bs : Bytes // bs.length = n } where
  put x := some x.1
  get bs := if h : (bs.take n).length = n then some (⟨bs.take n, h⟩, bs.drop n) else none
  get_put := by
    rintro ⟨a, rfl⟩ bs h rest
    obtain rfl := Option.some.inj h
    simp
  put_of_get := by
    intro bs a rest h
    split_ifs at h with hlen
    obtain ⟨rfl, rfl⟩ := Prod.mk.inj (Option.some.inj h)
    exact ⟨bs.take n, rfl, (List.take_append_drop n bs).symm⟩

/-- Read a value through a bijection of its representation. -/
def iso (c : Codec α) (f : α → β) (g : β → α) (hfg : ∀ b, f (g b) = b)
    (hgf : ∀ a, g (f a) = a) : Codec β where
  put b := c.put (g b)
  get bs := (c.get bs).map (fun p => (f p.1, p.2))
  get_put := by
    intro b bs h rest
    rw [c.get_put h rest, Option.map_some, hfg]
  put_of_get := by
    intro bs b rest h
    obtain ⟨⟨a, tail⟩, hget, heq⟩ := Option.map_eq_some_iff.mp h
    obtain ⟨rfl, rfl⟩ := Prod.mk.inj heq
    rw [hgf]
    exact c.put_of_get hget

/-- One value after another. -/
def pair (c : Codec α) (d : Codec β) : Codec (α × β) where
  put p := (c.put p.1).bind (fun b => (d.put p.2).map (b ++ ·))
  get bs := (c.get bs).bind (fun p => (d.get p.2).map (fun q => ((p.1, q.1), q.2)))
  get_put := by
    rintro ⟨a, b⟩ bs h rest
    obtain ⟨ba, ha, hmap⟩ := Option.bind_eq_some_iff.mp h
    obtain ⟨bb, hb, rfl⟩ := Option.map_eq_some_iff.mp hmap
    rw [List.append_assoc, c.get_put ha, Option.bind_some]
    dsimp only
    rw [d.get_put hb, Option.map_some]
  put_of_get := by
    rintro bs ⟨a, b⟩ rest h
    obtain ⟨⟨a', tail⟩, hget, h⟩ := Option.bind_eq_some_iff.mp h
    obtain ⟨⟨b', tail'⟩, hget', heq⟩ := Option.map_eq_some_iff.mp h
    obtain ⟨hab, rfl⟩ := Prod.mk.inj heq
    obtain ⟨rfl, rfl⟩ := Prod.mk.inj hab
    obtain ⟨ba, hput, rfl⟩ := c.put_of_get hget
    obtain ⟨bb, hput', htail⟩ := d.put_of_get hget'
    refine ⟨ba ++ bb, ?_, ?_⟩
    · rw [hput, Option.bind_some, hput', Option.map_some]
    · dsimp only at htail ⊢
      rw [htail, List.append_assoc]

/-- The encoding of a pair is that of its parts. -/
theorem put_pair {c : Codec α} {d : Codec β} {p : α × β} {bs : Bytes}
    (h : (c.pair d).put p = some bs) :
    ∃ b tail, c.put p.1 = some b ∧ d.put p.2 = some tail ∧ bs = b ++ tail := by
  obtain ⟨b, hb, hmap⟩ := Option.bind_eq_some_iff.mp h
  obtain ⟨tail, htail, rfl⟩ := Option.map_eq_some_iff.mp hmap
  exact ⟨b, tail, hb, htail, rfl⟩

/-- A pair has an encoding exactly if its parts do. -/
theorem isSome_put_pair_iff {c : Codec α} {d : Codec β} {p : α × β} :
    ((c.pair d).put p).isSome = true ↔ (c.put p.1).isSome = true ∧ (d.put p.2).isSome = true := by
  show ((c.put p.1).bind fun b => (d.put p.2).map (b ++ ·)).isSome = true ↔ _
  cases c.put p.1 with
  | none => exact iff_of_false Bool.false_ne_true fun h => Bool.false_ne_true h.1
  | some b =>
      rw [Option.bind_some, Option.isSome_map]
      exact (and_iff_right rfl).symm

/-- A little-endian `u64`. -/
def u64 : Codec UInt64 :=
  (fixed 8).iso (fun b => UInt64.ofLeBytes b.1) (fun x => ⟨x.toLeBytes, x.length_toLeBytes⟩)
    UInt64.ofLeBytes_toLeBytes
    (fun b => Subtype.ext (UInt64.toLeBytes_ofLeBytes b.2))

/-- The longest sequence that can be encoded (`MAX_SEQUENCE_LENGTH`). -/
def maxSequenceLength : ℕ := 2 ^ 31 - 1

/-- A byte string behind its length. -/
def bytes : Codec Bytes where
  put b := if b.length ≤ maxSequenceLength then some (putUleb b.length ++ b) else none
  get bs :=
    match getUleb 5 bs with
    | none => none
    | some (n, rest) =>
        if n ≤ maxSequenceLength then
          if (rest.take n).length = n then some (rest.take n, rest.drop n) else none
        else none
  get_put := by
    intro b bs h rest
    split_ifs at h with hlen
    obtain rfl := Option.some.inj h
    have h128 : b.length < 128 ^ (4 + 1) := by
      unfold maxSequenceLength at hlen
      omega
    rw [List.append_assoc, getUleb_putUleb 4 b.length (b ++ rest) h128]
    simp [hlen]
  put_of_get := by
    intro bs b rest h
    cases hg : getUleb 5 bs with
    | none => rw [hg] at h; simp at h
    | some p =>
        obtain ⟨n, tail⟩ := p
        rw [hg] at h
        dsimp only at h
        split_ifs at h with hmax hlen
        obtain ⟨rfl, rfl⟩ := Prod.mk.inj (Option.some.inj h)
        refine ⟨putUleb n ++ tail.take n, ?_, ?_⟩
        · rw [hlen, if_pos hmax]
        · rw [putUleb_of_getUleb hg, List.append_assoc, List.take_append_drop]

/-- A number always has an encoding. -/
theorem toBytes_u64 (x : UInt64) : u64.toBytes x = some x.toLeBytes := rfl

/-- A byte string has an encoding when its length has one. -/
theorem isSome_toBytes_bytes {bs : Bytes} :
    (bytes.toBytes bs).isSome = true ↔ bs.length ≤ maxSequenceLength := by
  show Option.isSome (if bs.length ≤ maxSequenceLength then some _ else none) = true ↔ _
  split_ifs with h
  · exact iff_of_true rfl h
  · exact iff_of_false Bool.false_ne_true h

end Codec
