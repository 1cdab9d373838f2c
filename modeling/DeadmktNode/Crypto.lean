/-
# Orders, hashes and signatures

The signed order, its BCS encoding and the byte strings that the node hashes and
signs.  SHA-256, BCS, hexadecimal and Ed25519 come from third-party crates: they are the
parameters of the class `Externals`, whose laws are the documented behaviour of BCS
(the layout of a type, the round trip, and that a value has one encoding), of
hexadecimal, and the length of a signature.  Nothing else is assumed of the signature
scheme, and nothing of the hash function.

`referenceExternals` is the instance made of this project's SHA-256, BCS and hexadecimal
and of a finite table of valid signatures; concrete runs are evaluated over it.
-/
import DeadmktNode.Sha256
import DeadmktNode.Text

/-! ## Orders -/

/-- An order as it is signed; the fields stand in the order of the contract's
structure. -/
structure Order where
  nftId : UInt64
  symbol : Bytes
  side : UInt8
  price : UInt64
  quantity : UInt64
  batchId : UInt64
  nonce : Bytes
deriving DecidableEq, Repr

/-- The fields of an order as nested pairs, in declaration order. -/
abbrev OrderFields := UInt64 × Bytes × UInt8 × UInt64 × UInt64 × UInt64 × Bytes

/-- The order made of its fields. -/
def Order.ofFields : OrderFields → Order
  | (nftId, symbol, side, price, quantity, batchId, nonce) =>
      ⟨nftId, symbol, side, price, quantity, batchId, nonce⟩

/-- The fields of an order. -/
def Order.toFields (o : Order) : OrderFields :=
  (o.nftId, o.symbol, o.side, o.price, o.quantity, o.batchId, o.nonce)

/-- The BCS layout of an order. -/
def Order.codec : Codec Order :=
  (Codec.u64.pair (Codec.bytes.pair (Codec.u8.pair (Codec.u64.pair
    (Codec.u64.pair (Codec.u64.pair Codec.bytes)))))).iso
    Order.ofFields Order.toFields (fun _ => rfl) (fun _ => rfl)

/-! ## Third-party functions -/

/-- The bytes of an Ed25519 public key. -/
abbrev VerifyingKey := Vector UInt8 32

/-- The bytes of an Ed25519 secret key. -/
abbrev SigningKey := Vector UInt8 32

/-- The crate `bcs`, at every type with a layout: it writes and reads that layout. -/
class BcsCrate where
  /-- `bcs::to_bytes` -/
  toBytes : {α : Type} → Codec α → α → Option Bytes
  /-- `bcs::from_bytes` -/
  fromBytes : {α : Type} → Codec α → Bytes → Option α
  toBytes_layout : ∀ {α : Type} (c : Codec α) (a : α), toBytes c a = c.toBytes a
  fromBytes_toBytes : ∀ {α : Type} (c : Codec α) {a : α} {bs : Bytes},
    toBytes c a = some bs → fromBytes c bs = some a
  toBytes_fromBytes : ∀ {α : Type} (c : Codec α) {a : α} {bs : Bytes},
    fromBytes c bs = some a → toBytes c a = some bs

/-- The functions that the node takes from the crates `sha2`, `bcs`, `hex` and
`ed25519_dalek`. -/
class Externals extends HexCrate, BcsCrate where
  /-- `Sha256::digest` -/
  sha256 : Bytes → Hash32
  /-- `SigningKey::sign` -/
  ed25519Sign : SigningKey → Bytes → Bytes
  /-- `VerifyingKey::verify` on a signature of 64 bytes -/
  ed25519Verify : VerifyingKey → Bytes → Bytes → Bool
  length_ed25519Sign : ∀ secret message, (ed25519Sign secret message).length = 64

export Externals (sha256)

section

variable [Externals]

/-- `bcs::to_bytes` at `Order` -/
def encodeOrder (order : Order) : Option Bytes := BcsCrate.toBytes Order.codec order

/-- `bcs::from_bytes` at `Order` -/
def decodeOrder (bs : Bytes) : Option Order := BcsCrate.fromBytes Order.codec bs

namespace Externals

theorem encode_layout (o : Order) : encodeOrder o = Order.codec.toBytes o :=
  BcsCrate.toBytes_layout Order.codec o

theorem decode_encode {o : Order} {bs : Bytes} (h : encodeOrder o = some bs) :
    decodeOrder bs = some o :=
  BcsCrate.fromBytes_toBytes Order.codec h

theorem encode_decode {o : Order} {bs : Bytes} (h : decodeOrder bs = some o) :
    encodeOrder o = some bs :=
  BcsCrate.toBytes_fromBytes Order.codec h

end Externals

/-- An order has an encoding exactly if its symbol and its nonce do: both are shorter than
2^31 bytes. -/
theorem isSome_encodeOrder_iff {o : Order} :
    (encodeOrder o).isSome = true ↔
      o.symbol.length ≤ Codec.maxSequenceLength ∧ o.nonce.length ≤ Codec.maxSequenceLength := by
  have hu64 : ∀ x : UInt64, Codec.u64.put x = some x.toLeBytes := fun _ => rfl
  have hu8 : ∀ x : UInt8, Codec.u8.put x = some [x] := fun _ => rfl
  rw [Externals.encode_layout, ← Codec.isSome_toBytes_bytes, ← Codec.isSome_toBytes_bytes]
  show ((Codec.u64.pair (Codec.bytes.pair (Codec.u8.pair (Codec.u64.pair
    (Codec.u64.pair (Codec.u64.pair Codec.bytes)))))).put o.toFields).isSome = true ↔
      (Codec.bytes.put o.symbol).isSome = true ∧ (Codec.bytes.put o.nonce).isSome = true
  simp only [Order.toFields, Codec.isSome_put_pair_iff, hu64, hu8, Option.isSome_some, true_and]

/-! ## Signing and hashing -/

/-- Sign raw bytes. -/
def sign (secret : SigningKey) (message : Bytes) : Bytes :=
  Externals.ed25519Sign secret message

/-- Verify a signature; one that is not 64 bytes long is refused. -/
def verify (key : VerifyingKey) (message signature : Bytes) : Bool :=
  if signature.length ≠ 64 then false else Externals.ed25519Verify key message signature

/-- `SHA256(BCS(order))`.  The source expects the encoding to succeed.  It does for every
order that was decoded (`orderHash_of_decodeOrder`), and for every order whose symbol and
nonce are shorter than 2^31 bytes (`isSome_encodeOrder_iff`), which all orders of a node
are; the empty string stands for the panic of an order that is longer. -/
def orderHash (order : Order) : Hash32 := sha256 ((encodeOrder order).getD [])

/-- The commit hash is the order hash. -/
def commitHash (order : Order) : Hash32 := orderHash order

/-- Sign the encoding of an order, which is expected to be there as it is for the hash. -/
def signOrder (secret : SigningKey) (order : Order) : Bytes :=
  sign secret ((encodeOrder order).getD [])

/-- Sign a commit: batch, pool and hash. -/
def signCommit (secret : SigningKey) (batchId poolId : UInt64) (hash : Bytes) : Bytes :=
  sign secret (batchId.toLeBytes ++ poolId.toLeBytes ++ hash)

/-- The bytes of a commit that are signed. -/
def commitMessage (batchId poolId : UInt64) (hash : Bytes) : Bytes :=
  batchId.toLeBytes ++ poolId.toLeBytes ++ hash

/-- The bytes of a `BatchComplete` that are signed; `none` if the symbol has no encoding. -/
def batchCompleteMessage (batchId poolId : UInt64) (symbol : Bytes)
    (avgSettlementPrice volume matchCount : UInt64) : Option Bytes :=
  (BcsCrate.toBytes Codec.bytes symbol).map fun symbolBcs =>
    batchId.toLeBytes ++ poolId.toLeBytes ++ symbolBcs ++ avgSettlementPrice.toLeBytes
      ++ volume.toLeBytes ++ matchCount.toLeBytes

/-- Sign a `BatchComplete`. -/
def signBatchComplete (secret : SigningKey) (batchId poolId : UInt64) (symbol : Bytes)
    (avgSettlementPrice volume matchCount : UInt64) : Option Bytes :=
  (batchCompleteMessage batchId poolId symbol avgSettlementPrice volume matchCount).map
    (sign secret)

/-- The bytes of a `SettlementReport` that are signed. -/
def settlementReportMessage (batchId : UInt64) (matchHash : Bytes) (settled : Bool)
    (bailerNft : UInt64) : Bytes :=
  batchId.toLeBytes ++ matchHash ++ [if settled then 1 else 0] ++ bailerNft.toLeBytes

/-- Sign a `SettlementReport`. -/
def signSettlementReport (secret : SigningKey) (batchId : UInt64) (matchHash : Bytes)
    (settled : Bool) (bailerNft : UInt64) : Bytes :=
  sign secret (settlementReportMessage batchId matchHash settled bailerNft)

/-- `SHA256(batch_id || buyer_hash || seller_hash || fill_quantity)`. -/
def computeMatchHash (batchId : UInt64) (buyerOrderHash sellerOrderHash : Hash32)
    (fillQuantity : UInt64) : Hash32 :=
  sha256 (batchId.toLeBytes ++ buyerOrderHash.toList ++ sellerOrderHash.toList
    ++ fillQuantity.toLeBytes)

/-- The order behind a byte string has that byte string as its encoding, so that its
hash is the digest of the bytes it came in. -/
theorem orderHash_of_decodeOrder {bs : Bytes} {o : Order} (h : decodeOrder bs = some o) :
    orderHash o = sha256 bs := by
  rw [orderHash, Externals.encode_decode h, Option.getD_some]

/-- Fewer than eight bytes encode no order. -/
theorem decodeOrder_of_length_lt {bs : Bytes} (h : bs.length < 8) : decodeOrder bs = none := by
  rw [Option.eq_none_iff_forall_ne_some]
  intro order hdec
  have henc := (Externals.encode_layout order).symm.trans (Externals.encode_decode hdec)
  obtain ⟨b, tail, hb, -, rfl⟩ :=
    Codec.put_pair (show (Codec.u64.pair _).put order.toFields = some bs from henc)
  obtain rfl := Option.some.inj hb
  rw [List.length_append, UInt64.length_toLeBytes] at h
  omega

/-- The bytes encode an order of batch `b`, or none at all. -/
def EncodesFor (b : UInt64) (orderBytes : Bytes) : Prop :=
  ∀ order, decodeOrder orderBytes = some order → order.batchId = b

end

/-! ## A reference implementation -/

/-- A message with its signature under a key pair. -/
structure SignedMessage where
  secret : SigningKey
  key : VerifyingKey
  message : Bytes
  signature : Bytes
deriving DecidableEq

/-- SHA-256, BCS and hexadecimal as defined in this project, and the signature scheme on a
finite table: exactly the listed signatures are made, if they have 64 bytes, and accepted. -/
@[reducible] def referenceExternals (table : List SignedMessage) : Externals where
  toHexCrate := HexCrate.reference
  toBytes c := c.toBytes
  fromBytes c := c.fromBytes
  toBytes_layout _ _ := rfl
  fromBytes_toBytes c := c.fromBytes_toBytes
  toBytes_fromBytes c := c.toBytes_of_fromBytes
  sha256 := Sha256.digest
  ed25519Sign secret message :=
    (((table.find? (fun s => s.secret = secret ∧ s.message = message)).map
      SignedMessage.signature).filter (·.length = 64)).getD (List.replicate 64 0)
  ed25519Verify key message signature :=
    table.any (fun s => s.key = key ∧ s.message = message ∧ s.signature = signature)
  length_ed25519Sign secret message := by
    cases hsignature : ((table.find? (fun s => s.secret = secret ∧ s.message = message)).map
        SignedMessage.signature).filter (·.length = 64) with
    | none => exact List.length_replicate
    | some signature => exact of_decide_eq_true (Option.filter_eq_some_iff.mp hsignature).2
