/-
# Bincode

Codecs for the default encoding of the crate `bincode`, as its documentation has it: integers are
little-endian with a fixed width, a sequence stands behind its length as a `u64`, a variant behind
its number as a `u32`, and a truth value is the byte 0 or 1.  A reader of a whole input takes what
it needs and allows bytes that are left over (`Codec.readPrefix`).
-/
import DeadmktNode.BcsCollections

/-! ## Digits -/

/-- The low digits of a number, and then its high digits. -/
theorem natToLe_add (v w n : ℕ) : natToLe (v + w) n = natToLe v n ++ natToLe w (n / 256 ^ v) := by
  induction v generalizing n with
  | zero => simp [natToLe]
  | succ v ih =>
      rw [Nat.succ_add, natToLe, ih, natToLe, List.cons_append, Nat.div_div_eq_div_mul, pow_succ']

theorem natOfLe_append (bs bs' : Bytes) :
    natOfLe (bs ++ bs') = natOfLe bs + 256 ^ bs.length * natOfLe bs' := by
  induction bs with
  | nil => simp [natOfLe]
  | cons b bs ih =>
      rw [List.cons_append, natOfLe, ih, natOfLe, List.length_cons, pow_succ']
      ring

namespace Codec

variable {α ι : Type*}

/-! ## Integers -/

/-- A number of `w` bytes. -/
def le (w : ℕ) : Codec (Fin (256 ^ w)) :=
  (fixed w).iso
    (fun b => ⟨natOfLe b.1, by
      have h := natOfLe_lt b.1
      rwa [b.2] at h⟩)
    (fun n => ⟨natToLe w n, length_natToLe w n⟩)
    (fun n => by
      apply Fin.ext
      show natOfLe (natToLe w n) = n
      rw [natOfLe_natToLe, Nat.mod_eq_of_lt n.isLt])
    (fun b => by
      obtain ⟨b, rfl⟩ := b
      exact Subtype.ext (natToLe_natOfLe b))

theorem put_le (w : ℕ) (n : Fin (256 ^ w)) : (le w).put n = some (natToLe w n) := rfl

/-- A little-endian `u16`. -/
def u16 : Codec UInt16 :=
  (le 2).iso UInt16.ofFin UInt16.toFin (fun _ => rfl) (fun _ => rfl)

/-- A little-endian `u32`. -/
def u32 : Codec UInt32 :=
  (le 4).iso UInt32.ofFin UInt32.toFin (fun _ => rfl) (fun _ => rfl)

/-- A truth value. -/
def bool : Codec Bool :=
  u8.refine (fun b => if b = 0 then some false else if b = 1 then some true else none)
    (fun b => if b then 1 else 0) (fun b => by cases b <;> rfl)
    (by
      intro a b h
      split_ifs at h with hzero hone
      · obtain rfl := Option.some.inj h
        exact hzero.symm
      · obtain rfl := Option.some.inj h
        exact hone.symm)

/-! ## Sequences and variants -/

/-- A byte string behind its length. -/
def sizedBytes : Codec Bytes where
  put b := if b.length < 2 ^ 64 then some (natToLe 8 b.length ++ b) else none
  get bs :=
    ((le 8).get bs).bind fun p =>
      if (p.2.take p.1).length = p.1 then some (p.2.take p.1, p.2.drop p.1) else none
  get_put := by
    intro b bs h rest
    split_ifs at h with hlen
    obtain rfl := Option.some.inj h
    have hput := put_le 8 ⟨b.length, hlen⟩
    rw [List.append_assoc, (le 8).get_put hput, Option.bind_some]
    simp
  put_of_get := by
    intro bs b rest h
    obtain ⟨⟨n, tail⟩, hget, hb⟩ := Option.bind_eq_some_iff.mp h
    dsimp only at hb
    split_ifs at hb with hlen
    obtain ⟨rfl, rfl⟩ := Prod.mk.inj (Option.some.inj hb)
    obtain ⟨digits, hput, rfl⟩ := (le 8).put_of_get hget
    obtain rfl := Option.some.inj hput
    refine ⟨natToLe 8 n ++ tail.take n, ?_, ?_⟩
    · have hn : (n : ℕ) < 2 ^ 64 := n.isLt
      rw [hlen, if_pos hn]
    · rw [List.append_assoc, List.take_append_drop]

/-- A value whose type depends on what stands before it. -/
def sigma {β : ι → Type*} (t : Codec ι) (c : ∀ i, Codec (β i)) : Codec (Σ i, β i) where
  put p := (t.put p.1).bind fun b => ((c p.1).put p.2).map (b ++ ·)
  get bs := (t.get bs).bind fun p => ((c p.1).get p.2).map fun q => (⟨p.1, q.1⟩, q.2)
  get_put := by
    rintro ⟨i, b⟩ bs h rest
    obtain ⟨bi, hi, hmap⟩ := Option.bind_eq_some_iff.mp h
    obtain ⟨bb, hb, rfl⟩ := Option.map_eq_some_iff.mp hmap
    rw [List.append_assoc, t.get_put hi, Option.bind_some]
    dsimp only
    rw [(c i).get_put hb, Option.map_some]
  put_of_get := by
    rintro bs ⟨i, b⟩ rest h
    obtain ⟨⟨k, tail⟩, hget, hmap⟩ := Option.bind_eq_some_iff.mp h
    obtain ⟨⟨b', rest'⟩, hget', heq⟩ := Option.map_eq_some_iff.mp hmap
    obtain ⟨hpair, rfl⟩ := Prod.mk.inj heq
    cases hpair
    obtain ⟨bi, hi, rfl⟩ := t.put_of_get hget
    obtain ⟨bb, hb, htail⟩ := (c k).put_of_get hget'
    refine ⟨bi ++ bb, ?_, ?_⟩
    · dsimp only at hi hb ⊢
      rw [hi, Option.bind_some, hb, Option.map_some]
    · dsimp only at htail ⊢
      rw [htail, List.append_assoc]

/-- The number of one of `n` variants. -/
def variantTag {n : ℕ} (hn : n ≤ 256 ^ 4) : Codec (Fin n) :=
  (le 4).refine (fun k => if h : (k : ℕ) < n then some ⟨k, h⟩ else none) (Fin.castLE hn)
    (fun i => by simp)
    (by
      intro k i h
      split_ifs at h with hk
      obtain rfl := Option.some.inj h
      rfl)

/-- One of `n` variants: its number, and then what it holds. -/
def variants {n : ℕ} (hn : n ≤ 256 ^ 4) {β : Fin n → Type*} (c : ∀ i, Codec (β i)) :
    Codec (Σ i, β i) :=
  (variantTag hn).sigma c

/-- The encoding of a variant is its number and that of what it holds. -/
theorem put_variants {n : ℕ} {hn : n ≤ 256 ^ 4} {β : Fin n → Type*} {c : ∀ i, Codec (β i)}
    {p : Σ i, β i} {bs : Bytes} (h : (variants hn c).put p = some bs) :
    ∃ body, (c p.1).put p.2 = some body ∧ bs = natToLe 4 p.1 ++ body := by
  have hput : ((variantTag hn).put p.1).bind (fun b => ((c p.1).put p.2).map (b ++ ·))
      = some bs := h
  obtain ⟨b, hb, hmap⟩ := Option.bind_eq_some_iff.mp hput
  obtain ⟨body, hbody, rfl⟩ := Option.map_eq_some_iff.mp hmap
  obtain rfl := Option.some.inj hb
  exact ⟨body, hbody, rfl⟩

/-! ## Whole inputs -/

/-- Read a value off an input; what follows it is ignored. -/
def readPrefix (c : Codec α) (bs : Bytes) : Option α := (c.get bs).map Prod.fst

/-- A value is read off the inputs that begin with its encoding, and off no others. -/
theorem readPrefix_eq_some_iff (c : Codec α) {bs : Bytes} {a : α} :
    c.readPrefix bs = some a ↔ ∃ b tail, c.put a = some b ∧ bs = b ++ tail := by
  constructor
  · intro h
    obtain ⟨⟨a', tail⟩, hget, rfl⟩ := Option.map_eq_some_iff.mp h
    obtain ⟨b, hput, rfl⟩ := c.put_of_get hget
    exact ⟨b, tail, hput, rfl⟩
  · rintro ⟨b, tail, hput, rfl⟩
    rw [readPrefix, c.get_put hput]
    rfl

end Codec
