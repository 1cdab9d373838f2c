/-
# Sequences, strings and enumerations in BCS

Codecs for values of a smaller type (`Codec.refine`), for sequences behind their length
(`Codec.list`), for text, and for one of several variants behind a tag (`Codec.tagged`).  Two
records with the same encoding are the same record (`Codec.put_inj`), whatever stands behind them.
-/
import DeadmktNode.Bcs

namespace Codec

variable {α β γ : Type*}

/-! ## Injectivity -/

/-- Encodings are told apart even when more bytes follow: none is a proper prefix of another. -/
theorem put_append_inj (c : Codec α) {a a' : α} {bs bs' rest rest' : Bytes}
    (h : c.put a = some bs) (h' : c.put a' = some bs') (heq : bs ++ rest = bs' ++ rest') :
    a = a' ∧ bs = bs' ∧ rest = rest' := by
  have hget := c.get_put h rest
  rw [heq, c.get_put h' rest'] at hget
  obtain ⟨rfl, rfl⟩ := Prod.mk.inj (Option.some.inj hget)
  refine ⟨rfl, ?_, rfl⟩
  exact Option.some.inj (h.symm.trans h')

/-- Equal encodings are those of one value. -/
theorem put_inj (c : Codec α) {a a' : α} {bs : Bytes} (h : c.put a = some bs)
    (h' : c.put a' = some bs) : a = a' :=
  (c.put_append_inj h h' (rfl : bs ++ [] = bs ++ [])).1

/-! ## Values of a smaller type -/

/-- Read a value through an injection into its representation: what does not represent a value
is refused. -/
def refine (c : Codec α) (f : α → Option β) (g : β → α) (hfg : ∀ b, f (g b) = some b)
    (hgf : ∀ {a b}, f a = some b → g b = a) : Codec β where
  put b := c.put (g b)
  get bs := (c.get bs).bind (fun p => (f p.1).map (fun b => (b, p.2)))
  get_put := by
    intro b bs h rest
    rw [c.get_put h rest, Option.bind_some]
    dsimp only
    rw [hfg, Option.map_some]
  put_of_get := by
    intro bs b rest h
    obtain ⟨⟨a, tail⟩, hget, hmap⟩ := Option.bind_eq_some_iff.mp h
    obtain ⟨b', hb, heq⟩ := Option.map_eq_some_iff.mp hmap
    obtain ⟨rfl, rfl⟩ := Prod.mk.inj heq
    rw [hgf hb]
    exact c.put_of_get hget

/-- An array of `n` bytes. -/
def vector (n : ℕ) : Codec (Vector UInt8 n) :=
  (fixed n).iso (fun b => ⟨b.1.toArray, by simpa using b.2⟩) (fun v => ⟨v.toList, by simp⟩)
    (fun v => Vector.toArray_inj.mp v.toArray.toArray_toList) (fun _ => by simp)

/-- The one value of a structure without fields. -/
def unit : Codec Unit where
  put _ := some []
  get bs := some ((), bs)
  get_put := by
    intro a bs h rest
    obtain rfl := Option.some.inj h
    rfl
  put_of_get := by
    intro bs a rest h
    obtain ⟨-, rfl⟩ := Prod.mk.inj (Option.some.inj h)
    exact ⟨[], rfl, rfl⟩

/-- A text as its UTF-8 bytes; bytes that are not UTF-8 are refused. -/
def string : Codec String :=
  bytes.refine (fun bs => String.fromUTF8? ⟨bs.toArray⟩) (fun s => s.toByteArray.data.toList)
    (by
      intro s
      show String.fromUTF8? s.toByteArray = some s
      rw [String.fromUTF8?, dif_pos s.isValidUTF8]
      rfl)
    (by
      intro bs s h
      unfold String.fromUTF8? at h
      split_ifs at h with hvalid
      obtain rfl := Option.some.inj h
      rfl)

/-! ## Sequences -/

/-- The encodings of the elements, one after another. -/
def putAll (c : Codec α) : List α → Option Bytes
  | [] => some []
  | a :: as => (c.put a).bind fun b => (c.putAll as).map (b ++ ·)

/-- Read `n` elements. -/
def getAll (c : Codec α) : ℕ → Bytes → Option (List α × Bytes)
  | 0, bs => some ([], bs)
  | n + 1, bs => (c.get bs).bind fun p => (c.getAll n p.2).map fun q => (p.1 :: q.1, q.2)

theorem getAll_putAll (c : Codec α) {as : List α} {bs : Bytes} (h : c.putAll as = some bs)
    (rest : Bytes) : c.getAll as.length (bs ++ rest) = some (as, rest) := by
  induction as generalizing bs with
  | nil =>
      obtain rfl := Option.some.inj h
      rfl
  | cons a as ih =>
      obtain ⟨b, hb, hmap⟩ := Option.bind_eq_some_iff.mp h
      obtain ⟨tail, htail, rfl⟩ := Option.map_eq_some_iff.mp hmap
      rw [List.length_cons, getAll, List.append_assoc, c.get_put hb, Option.bind_some]
      dsimp only
      rw [ih htail, Option.map_some]

theorem putAll_of_getAll (c : Codec α) {n : ℕ} {bs rest : Bytes} {as : List α}
    (h : c.getAll n bs = some (as, rest)) :
    as.length = n ∧ ∃ b, c.putAll as = some b ∧ bs = b ++ rest := by
  induction n generalizing bs as with
  | zero =>
      obtain ⟨rfl, rfl⟩ := Prod.mk.inj (Option.some.inj h)
      exact ⟨rfl, [], rfl, rfl⟩
  | succ n ih =>
      obtain ⟨⟨a, tail⟩, hget, hmap⟩ := Option.bind_eq_some_iff.mp h
      obtain ⟨⟨as', rest'⟩, hall, heq⟩ := Option.map_eq_some_iff.mp hmap
      obtain ⟨rfl, rfl⟩ := Prod.mk.inj heq
      obtain ⟨b, hput, rfl⟩ := c.put_of_get hget
      obtain ⟨hlen, b', hput', htail⟩ := ih hall
      refine ⟨by rw [List.length_cons, hlen], b ++ b', ?_, ?_⟩
      · rw [putAll, hput, Option.bind_some, hput', Option.map_some]
      · dsimp only at htail ⊢
        rw [htail, List.append_assoc]

/-- A length of a sequence is read back. -/
theorem getUleb_putUleb_of_lt {n : ℕ} (h : n < 2 ^ 32) (rest : Bytes) :
    getUleb 5 (putUleb n ++ rest) = some (n, rest) := by
  apply getUleb_putUleb 4
  omega

/-- The elements of a sequence behind its length. -/
def list (c : Codec α) : Codec (List α) where
  put as :=
    if as.length ≤ maxSequenceLength then (c.putAll as).map (putUleb as.length ++ ·) else none
  get bs :=
    (getUleb 5 bs).bind fun p => if p.1 ≤ maxSequenceLength then c.getAll p.1 p.2 else none
  get_put := by
    intro as bs h rest
    split_ifs at h with hlen
    obtain ⟨b, hb, rfl⟩ := Option.map_eq_some_iff.mp h
    have hlt : as.length < 2 ^ 32 := by
      unfold maxSequenceLength at hlen
      omega
    rw [List.append_assoc, getUleb_putUleb_of_lt hlt, Option.bind_some]
    dsimp only
    rw [if_pos hlen, c.getAll_putAll hb]
  put_of_get := by
    intro bs as rest h
    obtain ⟨⟨n, tail⟩, huleb, hall⟩ := Option.bind_eq_some_iff.mp h
    dsimp only at hall
    split_ifs at hall with hmax
    obtain ⟨rfl, b, hput, rfl⟩ := c.putAll_of_getAll hall
    refine ⟨putUleb as.length ++ b, ?_, ?_⟩
    · rw [if_pos hmax, hput, Option.map_some]
    · rw [putUleb_of_getUleb huleb, List.append_assoc]

/-! ## Enumerations -/

/-- One of `n` variants: the number of the variant in ULEB128, and then what the variant
holds. -/
def tagged {n : ℕ} (hn : n ≤ 2 ^ 32) {β : Fin n → Type*} (c : ∀ i, Codec (β i)) :
    Codec (Σ i, β i) where
  put p := ((c p.1).put p.2).map (putUleb p.1 ++ ·)
  get bs :=
    (getUleb 5 bs).bind fun p =>
      if h : p.1 < n then ((c ⟨p.1, h⟩).get p.2).map fun q => (⟨⟨p.1, h⟩, q.1⟩, q.2) else none
  get_put := by
    rintro ⟨i, b⟩ bs h rest
    obtain ⟨tail, htail, rfl⟩ := Option.map_eq_some_iff.mp h
    have hlt : (i : ℕ) < 2 ^ 32 := lt_of_lt_of_le i.isLt hn
    rw [List.append_assoc, getUleb_putUleb_of_lt hlt, Option.bind_some]
    dsimp only
    rw [dif_pos i.isLt, (c i).get_put htail, Option.map_some]
  put_of_get := by
    rintro bs ⟨i, b⟩ rest h
    obtain ⟨⟨k, tail⟩, huleb, hget⟩ := Option.bind_eq_some_iff.mp h
    dsimp only at hget
    split_ifs at hget with hk
    obtain ⟨⟨b', rest'⟩, hget', heq⟩ := Option.map_eq_some_iff.mp hget
    obtain ⟨hpair, rfl⟩ := Prod.mk.inj heq
    cases hpair
    obtain ⟨bs', hput, rfl⟩ := (c ⟨k, hk⟩).put_of_get hget'
    refine ⟨putUleb k ++ bs', ?_, ?_⟩
    · dsimp only
      rw [hput, Option.map_some]
    · rw [putUleb_of_getUleb huleb, List.append_assoc]

end Codec
