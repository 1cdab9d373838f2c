/-
# The bytes of a gossip message

Messages travel in bincode, behind the two bytes of the protocol version.  A node takes exactly
the inputs that begin with what a node of this version writes, and reports another version for
those that begin with what a node of that version writes (`GossipMessage.deserialize_iff`).  The
version came later than the messages: of the bare messages of older nodes all commits are refused,
and a reveal is taken for a commit at most in one batch of 65536
(`GossipMessage.bare_message_taken`).
-/
import DeadmktNode.Bincode
import DeadmktNode.RevealTransport

/-! ## Codecs -/

/-- An order on the wire; unlike its BCS encoding it has lengths of eight bytes. -/
def Order.wireCodec : Codec Order :=
  (Codec.u64.pair (Codec.sizedBytes.pair (Codec.u8.pair (Codec.u64.pair (Codec.u64.pair
    (Codec.u64.pair Codec.sizedBytes)))))).iso
    (fun p => ⟨p.1, p.2.1, p.2.2.1, p.2.2.2.1, p.2.2.2.2.1, p.2.2.2.2.2.1, p.2.2.2.2.2.2⟩)
    (fun o => (o.nftId, o.symbol, o.side, o.price, o.quantity, o.batchId, o.nonce))
    (fun _ => rfl) (fun _ => rfl)

namespace GossipMessage

/-- What each variant holds, in declaration order. -/
def Fields : Fin 4 → Type
  | 0 => UInt64 × UInt64 × Hash32 × UInt64 × Bytes
  | 1 => UInt64 × UInt64 × Order × Bytes
  | 2 => UInt64 × UInt64 × Bytes × UInt64 × UInt64 × UInt64 × UInt32 × UInt32 × UInt64 × Bytes
  | 3 => UInt64 × Hash32 × Bool × UInt64 × UInt64 × Bytes

def fieldsCodec : ∀ i, Codec (Fields i)
  | 0 => Codec.u64.pair (Codec.u64.pair ((Codec.vector 32).pair
      (Codec.u64.pair Codec.sizedBytes)))
  | 1 => Codec.u64.pair (Codec.u64.pair (Order.wireCodec.pair Codec.sizedBytes))
  | 2 => Codec.u64.pair (Codec.u64.pair (Codec.sizedBytes.pair (Codec.u64.pair (Codec.u64.pair
      (Codec.u64.pair (Codec.u32.pair (Codec.u32.pair (Codec.u64.pair Codec.sizedBytes))))))))
  | 3 => Codec.u64.pair ((Codec.vector 32).pair (Codec.bool.pair (Codec.u64.pair
      (Codec.u64.pair Codec.sizedBytes))))

/-- The message of some fields. -/
def ofFields : (Σ i, Fields i) → GossipMessage
  | ⟨0, batchId, poolId, hash, nftId, signature⟩ =>
      .commitment batchId poolId hash nftId signature
  | ⟨1, batchId, poolId, order, signature⟩ => .reveal batchId poolId order signature
  | ⟨2, batchId, poolId, symbol, avgSettlementPrice, volume, matchCount, numCommits, numReveals,
      senderNftId, signature⟩ =>
      .batchComplete batchId poolId symbol avgSettlementPrice volume matchCount numCommits
        numReveals senderNftId signature
  | ⟨3, batchId, matchHash, settled, bailerNft, reporterNftId, signature⟩ =>
      .settlementReport batchId matchHash settled bailerNft reporterNftId signature

/-- The fields of a message, behind the number of its kind. -/
def toFields : GossipMessage → (Σ i, Fields i)
  | .commitment batchId poolId hash nftId signature =>
      ⟨0, batchId, poolId, hash, nftId, signature⟩
  | .reveal batchId poolId order signature => ⟨1, batchId, poolId, order, signature⟩
  | .batchComplete batchId poolId symbol avgSettlementPrice volume matchCount numCommits
      numReveals senderNftId signature =>
      ⟨2, batchId, poolId, symbol, avgSettlementPrice, volume, matchCount, numCommits, numReveals,
        senderNftId, signature⟩
  | .settlementReport batchId matchHash settled bailerNft reporterNftId signature =>
      ⟨3, batchId, matchHash, settled, bailerNft, reporterNftId, signature⟩

/-- A message without an envelope. -/
def wireCodec : Codec GossipMessage :=
  (Codec.variants (by decide) fieldsCodec).iso ofFields toFields
    (fun m => by cases m <;> rfl)
    (fun p => by
      obtain ⟨i, b⟩ := p
      match i, b with
      | 0, _ => rfl
      | 1, _ => rfl
      | 2, _ => rfl
      | 3, _ => rfl)

end GossipMessage

/-- The layout of an envelope: its version, then the message. -/
def GossipEnvelope.wireCodec : Codec GossipEnvelope :=
  (Codec.u16.pair GossipMessage.wireCodec).iso (fun p => ⟨p.1, p.2⟩)
    (fun e => (e.version, e.message)) (fun _ => rfl) (fun _ => rfl)

/-- The crate `bincode`, with its documented layout: it writes an envelope in this layout, and
reads one off the bytes that begin with it. -/
class BincodeLayout extends Bincode where
  encode_layout : ∀ e, encode e = GossipEnvelope.wireCodec.put e
  decode_layout : ∀ bs, decode bs = GossipEnvelope.wireCodec.readPrefix bs

/-- The reference implementation, which is the layout itself. -/
@[reducible] def BincodeLayout.reference : BincodeLayout where
  encode := GossipEnvelope.wireCodec.put
  decode := GossipEnvelope.wireCodec.readPrefix
  decode_encode := by
    intro e bs h
    rw [Codec.readPrefix_eq_some_iff]
    exact ⟨bs, [], h, (List.append_nil bs).symm⟩
  encode_layout _ := rfl
  decode_layout _ := rfl

namespace GossipMessage

/-! ## What a node takes -/

section

variable [BincodeLayout]

/-- Written is the envelope of the version of the node. -/
theorem serialize_eq_ok_iff {m : GossipMessage} {bs : Bytes} :
    serialize m = .ok bs ↔ GossipEnvelope.wireCodec.put ⟨protocolVersion, m⟩ = some bs := by
  unfold serialize
  rw [BincodeLayout.encode_layout]
  cases GossipEnvelope.wireCodec.put ⟨protocolVersion, m⟩ <;> simp

/-- What `deserialize` makes of the envelope that it reads. -/
theorem deserialize_eq (bs : Bytes) :
    deserialize bs =
      (match GossipEnvelope.wireCodec.readPrefix bs with
        | none => .error .bincode
        | some envelope =>
            if envelope.version ≠ protocolVersion then
              .error (.versionMismatch envelope.version protocolVersion)
            else .ok envelope.message : Except GossipCodecError GossipMessage) := by
  unfold deserialize
  exact BincodeLayout.decode_layout bs ▸ rfl

/-- **What a node takes.**  A node reads a message off the inputs that begin with what a node of
its version writes for the message, and off no others; the report of another version is about
the inputs that begin with what that version writes for some message. -/
theorem deserialize_iff (bs : Bytes) :
    (∀ m, deserialize bs = .ok m ↔ ∃ b tail, serialize m = .ok b ∧ bs = b ++ tail) ∧
    ∀ got expected, deserialize bs = .error (.versionMismatch got expected) ↔
      expected = protocolVersion ∧ got ≠ protocolVersion ∧ ∃ m b tail,
        GossipEnvelope.wireCodec.put ⟨got, m⟩ = some b ∧ bs = b ++ tail := by
  have hread : ∀ e, GossipEnvelope.wireCodec.readPrefix bs = some e ↔
      ∃ b tail, GossipEnvelope.wireCodec.put e = some b ∧ bs = b ++ tail :=
    fun _ => Codec.readPrefix_eq_some_iff _
  simp only [serialize_eq_ok_iff, deserialize_eq]
  constructor
  · intro m
    rw [← hread]
    -- the envelope that is read is the only one that the input begins with
    cases henv : GossipEnvelope.wireCodec.readPrefix bs with
    | none => simp
    | some envelope =>
        obtain ⟨version, message⟩ := envelope
        dsimp only
        split_ifs with hversion
        · simp [hversion]
        · obtain rfl := not_not.mp hversion
          simp
  · intro got expected
    cases henv : GossipEnvelope.wireCodec.readPrefix bs with
    | none =>
        constructor
        · intro h
          cases h
        · rintro ⟨-, -, m, b, tail, hput, hbs⟩
          have h := (hread ⟨got, m⟩).mpr ⟨b, tail, hput, hbs⟩
          rw [henv] at h
          cases h
    | some envelope =>
        obtain ⟨version, message⟩ := envelope
        dsimp only
        constructor
        · intro h
          split_ifs at h with hversion
          obtain ⟨rfl, rfl⟩ := GossipCodecError.versionMismatch.inj (Except.error.inj h)
          exact ⟨rfl, hversion, message, (hread _).mp henv⟩
        · rintro ⟨rfl, hne, m, b, tail, hput, hbs⟩
          have h := (hread ⟨got, m⟩).mpr ⟨b, tail, hput, hbs⟩
          rw [henv] at h
          obtain ⟨rfl, rfl⟩ := GossipEnvelope.mk.inj (Option.some.inj h)
          rw [if_pos hne]

end

/-! ## Bare messages

A message of an older node begins with the four bytes of its variant.  Read as an envelope, the
first two are the version and the other two, which are 0, begin the variant of the message; so
all that follows is read two bytes late. -/

/-- The bytes of a message: its number and what it holds. -/
theorem put_wireCodec {m : GossipMessage} {bs : Bytes} (h : wireCodec.put m = some bs) :
    ∃ body, (fieldsCodec (toFields m).1).put (toFields m).2 = some body ∧
      bs = natToLe 4 (toFields m).1 ++ body :=
  Codec.put_variants (p := toFields m) h

/-- The bytes of an envelope: the version, and then those of the message. -/
theorem put_envelope {version : UInt16} {m : GossipMessage} {bs : Bytes}
    (h : GossipEnvelope.wireCodec.put ⟨version, m⟩ = some bs) :
    ∃ body, (fieldsCodec (toFields m).1).put (toFields m).2 = some body ∧
      bs = natToLe 2 version.toNat ++ (natToLe 4 (toFields m).1 ++ body) := by
  have hpair : (Codec.u16.pair wireCodec).put (version, m) = some bs := h
  obtain ⟨b, tail, hb, htail, rfl⟩ := Codec.put_pair hpair
  obtain rfl := Option.some.inj hb
  obtain ⟨body, hbody, rfl⟩ := put_wireCodec htail
  exact ⟨body, hbody, rfl⟩

/-- A number below 256 has one digit, and zeros behind it. -/
theorem natToLe_of_lt {n : ℕ} (h : n < 256) : natToLe 4 n = [UInt8.ofNat n, 0, 0, 0] := by
  have hdiv : n / 256 = 0 := Nat.div_eq_of_lt h
  simp [natToLe, Nat.mod_eq_of_lt h, hdiv]

/-- The bytes of a bare message, read as those of an envelope of this version: the message is a
reveal, what is read is a commit, and the rest of the reveal begins with the two zeros that are
left of the number of the commit. -/
theorem bare_eq_envelope {m m' : GossipMessage} {body body' tail : Bytes}
    (h : natToLe 4 (toFields m).1 ++ body
      = natToLe 2 protocolVersion.toNat ++ (natToLe 4 (toFields m').1 ++ body') ++ tail) :
    (toFields m).1 = 1 ∧ (toFields m').1 = 0 ∧ body = 0 :: 0 :: (body' ++ tail) := by
  have hlt : ((toFields m).1 : ℕ) < 256 := by
    have := (toFields m).1.isLt
    omega
  have hlt' : ((toFields m').1 : ℕ) < 256 := by
    have := (toFields m').1.isLt
    omega
  have hversion : natToLe 2 protocolVersion.toNat = [1, 0] := rfl
  rw [natToLe_of_lt hlt, natToLe_of_lt hlt', hversion] at h
  simp only [List.cons_append, List.nil_append, List.cons.injEq] at h
  obtain ⟨hfirst, -, hsecond, -, hbody⟩ := h
  have hone : ((toFields m).1 : ℕ) = 1 := by
    have h := congrArg UInt8.toNat hfirst
    rwa [UInt8.toNat_ofNat_of_lt' hlt] at h
  have hzero : ((toFields m').1 : ℕ) = 0 := by
    have h := congrArg UInt8.toNat hsecond
    rw [UInt8.toNat_ofNat_of_lt' hlt'] at h
    exact h.symm
  exact ⟨Fin.ext hone, Fin.ext hzero, hbody⟩

/-- The second kind is a reveal. -/
theorem exists_reveal_of_toFields {m : GossipMessage} (h : (toFields m).1 = 1) :
    ∃ batchId poolId order signature, m = .reveal batchId poolId order signature := by
  cases m with
  | reveal batchId poolId order signature => exact ⟨batchId, poolId, order, signature, rfl⟩
  | _ => exact absurd h (by simp [toFields])

/-- The first kind is a commitment. -/
theorem exists_commitment_of_toFields {m : GossipMessage} (h : (toFields m).1 = 0) :
    ∃ batchId poolId hash nftId signature,
      m = .commitment batchId poolId hash nftId signature := by
  cases m with
  | commitment batchId poolId hash nftId signature =>
      exact ⟨batchId, poolId, hash, nftId, signature, rfl⟩
  | _ => exact absurd h (by simp [toFields])

/-- The bytes of a reveal begin with those of batch, pool and NFT. -/
theorem put_reveal {batchId poolId : UInt64} {order : Order} {signature body : Bytes}
    (h : (fieldsCodec 1).put (batchId, poolId, order, signature) = some body) :
    ∃ rest, body = batchId.toLeBytes ++ (poolId.toLeBytes ++ (order.nftId.toLeBytes ++ rest)) := by
  obtain ⟨b, t, hb, ht, rfl⟩ := Codec.put_pair h
  obtain rfl := Option.some.inj hb
  obtain ⟨p, t', hp, ht', rfl⟩ := Codec.put_pair ht
  obtain rfl := Option.some.inj hp
  obtain ⟨o, t'', ho, -, rfl⟩ := Codec.put_pair ht'
  have hfields : (Codec.u64.pair (Codec.sizedBytes.pair (Codec.u8.pair (Codec.u64.pair
      (Codec.u64.pair (Codec.u64.pair Codec.sizedBytes)))))).put
        (order.nftId, order.symbol, order.side, order.price, order.quantity, order.batchId,
          order.nonce) = some o := ho
  obtain ⟨n, rest, hn, -, rfl⟩ := Codec.put_pair hfields
  obtain rfl := Option.some.inj hn
  refine ⟨rest ++ t'', ?_⟩
  simp only [List.append_assoc]

/-- The bytes of a commit begin with those of batch and pool. -/
theorem put_commitment {batchId poolId nftId : UInt64} {hash : Hash32} {signature body : Bytes}
    (h : (fieldsCodec 0).put (batchId, poolId, hash, nftId, signature) = some body) :
    ∃ rest, body = batchId.toLeBytes ++ (poolId.toLeBytes ++ rest) := by
  obtain ⟨b, t, hb, ht, rfl⟩ := Codec.put_pair h
  obtain rfl := Option.some.inj hb
  obtain ⟨p, rest, hp, -, rfl⟩ := Codec.put_pair ht
  obtain rfl := Option.some.inj hp
  exact ⟨rest, rfl⟩

/-- The two low digits of a number, and the other six. -/
theorem toLeBytes_eq (x : UInt64) :
    x.toLeBytes = natToLe 2 x.toNat ++ natToLe 6 (x.toNat / 65536) :=
  natToLe_add 2 6 x.toNat

/-- A number whose digits are six of one number and the two low ones of another. -/
theorem toNat_of_shifted {x y z : UInt64} (h : x.toLeBytes
      = natToLe 6 (y.toNat / 65536) ++ natToLe 2 z.toNat) :
    x.toNat = y.toNat / 65536 + 2 ^ 48 * (z.toNat % 65536) := by
  have hx : natOfLe x.toLeBytes = x.toNat := by
    rw [UInt64.toLeBytes, natOfLe_natToLe]
    exact Nat.mod_eq_of_lt x.toNat_lt
  have hy : y.toNat / 65536 < 256 ^ 6 := by
    have := y.toNat_lt
    omega
  rw [← hx, h, natOfLe_append, natOfLe_natToLe, natOfLe_natToLe, length_natToLe,
    Nat.mod_eq_of_lt hy]
  norm_num

/-- **Bare messages.**  If a node takes a message without an envelope, then it is a reveal of a
batch whose number is a multiple of 65536, and the node takes it for a commit: of the batch and
the pool that stand two bytes later. -/
theorem bare_message_taken [BincodeLayout] {m m' : GossipMessage} {bs : Bytes}
    (h : wireCodec.put m = some bs) (htaken : deserialize bs = .ok m') :
    ∃ batchId poolId order signature, m = .reveal batchId poolId order signature ∧
      batchId.toNat % 65536 = 0 ∧ ∃ batchId' poolId' hash nftId signature',
        m' = .commitment batchId' poolId' hash nftId signature' ∧
        batchId'.toNat = batchId.toNat / 65536 + 2 ^ 48 * (poolId.toNat % 65536) ∧
        poolId'.toNat = poolId.toNat / 65536 + 2 ^ 48 * (order.nftId.toNat % 65536) := by
  have htake : ∃ b tail, GossipEnvelope.wireCodec.put ⟨protocolVersion, m'⟩ = some b ∧
      bs = b ++ tail := by
    rw [← Codec.readPrefix_eq_some_iff]
    rw [deserialize_eq] at htaken
    cases henv : GossipEnvelope.wireCodec.readPrefix bs with
    | none =>
        rw [henv] at htaken
        cases htaken
    | some envelope =>
        obtain ⟨version, message⟩ := envelope
        rw [henv] at htaken
        dsimp only at htaken
        split_ifs at htaken with hversion
        obtain rfl := Except.ok.inj htaken
        rw [not_not.mp hversion]
  obtain ⟨b, tail, hput, hb⟩ := htake
  obtain ⟨body, hbody, rfl⟩ := put_wireCodec h
  obtain ⟨body', hbody', rfl⟩ := put_envelope hput
  obtain ⟨hreveal, hcommit, hshift⟩ := bare_eq_envelope hb
  obtain ⟨batchId, poolId, order, signature, rfl⟩ := exists_reveal_of_toFields hreveal
  obtain ⟨batchId', poolId', hash, nftId, signature', rfl⟩ := exists_commitment_of_toFields hcommit
  obtain ⟨rest, rfl⟩ := put_reveal hbody
  obtain ⟨rest', rfl⟩ := put_commitment hbody'
  rw [toLeBytes_eq batchId, toLeBytes_eq poolId, toLeBytes_eq order.nftId] at hshift
  -- the two zeros are the low digits of the batch
  have hsplit : natToLe 2 batchId.toNat ++ (natToLe 6 (batchId.toNat / 65536)
      ++ (natToLe 2 poolId.toNat ++ (natToLe 6 (poolId.toNat / 65536)
        ++ (natToLe 2 order.nftId.toNat ++ (natToLe 6 (order.nftId.toNat / 65536) ++ rest)))))
      = natToLe 2 0 ++ (batchId'.toLeBytes ++ (poolId'.toLeBytes ++ (rest' ++ tail))) := by
    rw [show natToLe 2 0 = [0, 0] from rfl]
    simpa only [List.append_assoc, List.cons_append, List.nil_append] using hshift
  obtain ⟨hzero, hsplit⟩ := List.append_inj hsplit (by simp)
  rw [← List.append_assoc] at hsplit
  obtain ⟨hbatch, hsplit⟩ := List.append_inj hsplit (by simp)
  rw [← List.append_assoc] at hsplit
  obtain ⟨hpool, -⟩ := List.append_inj hsplit (by simp)
  have hlow : batchId.toNat % 65536 = 0 := by
    have hdigits := congrArg natOfLe hzero
    rwa [natOfLe_natToLe, natOfLe_natToLe] at hdigits
  exact ⟨batchId, poolId, order, signature, rfl, hlow, batchId', poolId', hash, nftId, signature',
    rfl, toNat_of_shifted hbatch.symm, toNat_of_shifted hpool.symm⟩

/-! ### A reveal that is taken for a commit -/

section

attribute [local instance] BincodeLayout.reference

/-- A bare reveal of batch 65536 and of a pair whose name has 17 letters, `EMERALDS/KAYAKERS`; so
the low bytes of its quantity stand where a commit has the length of its signature. -/
def oldReveal : GossipMessage :=
  .reveal 65536 3
    { nftId := 42
      symbol := [69, 77, 69, 82, 65, 76, 68, 83, 47, 75, 65, 89, 65, 75, 69, 82, 83]
      side := 1
      price := 10
      quantity := 5
      batchId := 65536
      nonce := List.replicate 32 187 }
    (List.replicate 64 170)

/-- A node takes it for a commit, of a batch and a pool that nobody is in. -/
theorem old_reveal_is_taken :
    ∃ bs m', wireCodec.put oldReveal = some bs ∧ deserialize bs = .ok m' ∧
      ∃ batchId poolId hash nftId signature,
        m' = .commitment batchId poolId hash nftId signature ∧
        batchId.toNat = 1 + 2 ^ 48 * 3 ∧ poolId.toNat = 2 ^ 48 * 42 := by
  obtain ⟨bs, hbs⟩ := Option.isSome_iff_exists.mp
    (by decide +kernel : (wireCodec.put oldReveal).isSome)
  have hread : ((wireCodec.put oldReveal).map fun bs => (deserialize bs).toBool) = some true := by
    decide +kernel
  rw [hbs] at hread
  cases htaken : deserialize bs with
  | error e =>
      rw [Option.map_some, htaken] at hread
      cases hread
  | ok m' =>
      obtain ⟨batchId, poolId, order, signature, hreveal, -, batchId', poolId', hash, nftId,
        signature', hm', hbatch, hpool⟩ := bare_message_taken hbs htaken
      obtain ⟨rfl, rfl, rfl, rfl⟩ := GossipMessage.reveal.inj hreveal
      exact ⟨bs, m', hbs, htaken, batchId', poolId', hash, nftId, signature', hm', hbatch, hpool⟩

end

end GossipMessage
