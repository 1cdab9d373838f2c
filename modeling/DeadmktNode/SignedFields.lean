/-
# Which fields are signed?

A receiver verifies a signature over bytes that it builds from some of the fields of a
message.  Within one kind of message these bytes determine the fields that they are built
from (`SignedData.eq_of_bytes_eq`), so a relay cannot change one of them and keep the
bytes.  The other fields it can: the counts and the sender of a `BatchComplete`, the batch
and the pool around a revealed order, the names of the signers.
-/
import DeadmktNode.Censorship
import DeadmktNode.MessageKinds

namespace SignedData

/-! ## One kind -/

/-- A byte string that has an encoding is determined by it. -/
theorem bytes_codec_inj {s t out : Bytes} (hs : Codec.bytes.toBytes s = some out)
    (ht : Codec.bytes.toBytes t = some out) : s = t := by
  have h := Codec.bytes.fromBytes_toBytes hs
  rw [Codec.bytes.fromBytes_toBytes ht] at h
  exact (Option.some.inj h).symm

theorem batchCompleteMessage_inj [Externals]
    {b b' p p' price price' volume volume' count count' : UInt64} {symbol symbol' bs : Bytes}
    (h : batchCompleteMessage b p symbol price volume count = some bs)
    (h' : batchCompleteMessage b' p' symbol' price' volume' count' = some bs) :
    b = b' ∧ p = p' ∧ symbol = symbol' ∧ price = price' ∧ volume = volume' ∧ count = count' := by
  obtain ⟨bcs, hsymbol, rfl⟩ := Option.map_eq_some_iff.mp h
  obtain ⟨bcs', hsymbol', heq⟩ := Option.map_eq_some_iff.mp h'
  rw [BcsCrate.toBytes_layout] at hsymbol hsymbol'
  -- the three numbers at the end, then the two at the start
  obtain ⟨h₁, hcount⟩ := append_toLeBytes_inj.mp heq
  obtain ⟨h₂, hvolume⟩ := append_toLeBytes_inj.mp h₁
  obtain ⟨h₃, hprice⟩ := append_toLeBytes_inj.mp h₂
  rw [List.append_assoc, List.append_assoc] at h₃
  obtain ⟨hbatch, h₄⟩ := toLeBytes_append_inj.mp h₃
  obtain ⟨hpool, hbcs⟩ := toLeBytes_append_inj.mp h₄
  exact ⟨hbatch.symm, hpool.symm, bytes_codec_inj hsymbol (hbcs ▸ hsymbol'), hprice.symm,
    hvolume.symm, hcount.symm⟩

/-- **Within one kind the signed bytes determine the signed fields.** -/
theorem eq_of_bytes_eq [Externals] {m m' : SignedData} {bs : Bytes} (hkind : m.kind = m'.kind)
    (h : m.bytes = some bs) (h' : m'.bytes = some bs) : m = m' := by
  -- one kind at a time: the numbers have a fixed width, so each is cut off in turn
  cases m with
  | commit b p hash =>
      cases m' with
      | commit b' p' hash' =>
          have heq : commitMessage b p hash.toList = commitMessage b' p' hash'.toList :=
            Option.some.inj (h.trans h'.symm)
          unfold commitMessage at heq
          rw [List.append_assoc, List.append_assoc] at heq
          obtain ⟨hbatch, hrest⟩ := toLeBytes_append_inj.mp heq
          obtain ⟨hpool, hhash⟩ := toLeBytes_append_inj.mp hrest
          rw [hbatch, hpool, Vector.toList_inj.mp hhash]
      | order | batchComplete | settlementReport => cases hkind
  | order o =>
      cases m' with
      | order o' =>
          -- the bytes of an order are read back
          have hdec := Externals.decode_encode h
          rw [Externals.decode_encode h'] at hdec
          rw [Option.some.inj hdec]
      | commit | batchComplete | settlementReport => cases hkind
  | batchComplete b p symbol price volume count =>
      cases m' with
      | batchComplete b' p' symbol' price' volume' count' =>
          obtain ⟨rfl, rfl, rfl, rfl, rfl, rfl⟩ := batchCompleteMessage_inj h h'
          rfl
      | commit | order | settlementReport => cases hkind
  | settlementReport b matchHash settled bailer =>
      cases m' with
      | settlementReport b' matchHash' settled' bailer' =>
          have heq : settlementReportMessage b matchHash.toList settled bailer
              = settlementReportMessage b' matchHash'.toList settled' bailer' :=
            Option.some.inj (h.trans h'.symm)
          obtain ⟨hfront, hbailer⟩ := append_toLeBytes_inj.mp heq
          rw [List.append_assoc, List.append_assoc] at hfront
          obtain ⟨hbatch, hrest⟩ := toLeBytes_append_inj.mp hfront
          obtain ⟨hhash, hflag⟩ := List.append_inj hrest (by simp)
          have hsettled : settled = settled' := by
            cases settled <;> cases settled' <;> simp_all
          rw [hbatch, Vector.toList_inj.mp hhash, hsettled, hbailer]
      | commit | order | batchComplete => cases hkind

end SignedData

/-! ## Messages on the wire -/

namespace GossipMessage

/-- The fields of a message under its signature. -/
def signedData : GossipMessage → SignedData
  | .commitment batchId poolId hash _ _ => .commit batchId poolId hash
  | .reveal _ _ order _ => .order order
  | .batchComplete batchId poolId symbol avgSettlementPrice volume matchCount _ _ _ _ =>
      .batchComplete batchId poolId symbol avgSettlementPrice volume matchCount
  | .settlementReport batchId matchHash settled bailerNft _ _ =>
      .settlementReport batchId matchHash settled bailerNft

/-- The bytes that a receiver of the message verifies. -/
def verifiedBytes [Externals] (m : GossipMessage) : Option Bytes := m.signedData.bytes

/-- The message with its signature blanked. -/
def unsigned : GossipMessage → GossipMessage
  | .commitment batchId poolId hash nftId _ => .commitment batchId poolId hash nftId []
  | .reveal batchId poolId order _ => .reveal batchId poolId order []
  | .batchComplete batchId poolId symbol avgSettlementPrice volume matchCount numCommits
      numReveals senderNftId _ =>
      .batchComplete batchId poolId symbol avgSettlementPrice volume matchCount numCommits
        numReveals senderNftId []
  | .settlementReport batchId matchHash settled bailerNft reporterNftId _ =>
      .settlementReport batchId matchHash settled bailerNft reporterNftId []

/-- **Exactly the fields under the signature are protected.**  Two messages of one kind are
verified over different bytes if and only if they differ in a field under the signature. -/
theorem verifiedBytes_ne_iff [Externals] {m m' : GossipMessage} {bs bs' : Bytes}
    (hkind : m.signedData.kind = m'.signedData.kind) (h : m.verifiedBytes = some bs)
    (h' : m'.verifiedBytes = some bs') : bs ≠ bs' ↔ m.signedData ≠ m'.signedData := by
  refine not_congr ⟨?_, ?_⟩
  · rintro rfl
    exact SignedData.eq_of_bytes_eq hkind h h'
  · intro hdata
    unfold verifiedBytes at h h'
    rw [hdata, h'] at h
    exact (Option.some.inj h).symm

end GossipMessage

/-! ## What the validators verify -/

namespace GossipValidation.GossipValidator

section

variable {P R B : Type} [Externals] [PubkeyProvider P] {v : GossipValidator P R B}

/-- An accepted `BatchComplete` is signed by its sender over the verified bytes, whatever its
two counts say. -/
theorem signs_of_batchComplete_accepted {m : BatchComplete} {v' : GossipValidator P R B}
    (h : v.validateBatchComplete m = some (.accepted, v')) (numCommits numReveals : UInt32) :
    ((GossipMessage.batchComplete m.batchId m.poolId m.symbol m.avgSettlementPrice m.volume
      m.matchCount numCommits numReveals m.senderNftId m.signature).verifiedBytes.any
        fun bs => v.toSettings.signs m.senderNftId bs m.signature) = true := by
  unfold validateBatchComplete at h
  split_ifs at h with hbatch hpools hpool
  · cases (Prod.mk.inj (Option.some.inj h)).1
  · cases (Prod.mk.inj (Option.some.inj h)).1
  · unfold Settings.signs
    cases hkey : PubkeyProvider.getPubkey v.pubkeys m.senderNftId with
    | none =>
        rw [hkey] at h
        cases (Prod.mk.inj (Option.some.inj h)).1
    | some pubkey =>
        rw [hkey] at h
        obtain ⟨bs, hbs, hverdict⟩ := Option.map_eq_some_iff.mp h
        have hbytes : (GossipMessage.batchComplete m.batchId m.poolId m.symbol
            m.avgSettlementPrice m.volume m.matchCount numCommits numReveals m.senderNftId
            m.signature).verifiedBytes = some bs := hbs
        rw [hbytes]
        cases hverify : verify pubkey bs m.signature with
        | true => exact hverify
        | false => simp [hverify] at hverdict

/-- An accepted reveal is signed by the NFT of its order over the verified bytes. -/
theorem signs_of_reveal_accepted {r : Reveal} {v' : GossipValidator P R B}
    (h : v.validateReveal r = some (.accepted, v')) :
    ((GossipMessage.reveal r.batchId r.poolId r.order r.signature).verifiedBytes.any
      fun bs => v.toSettings.signs r.order.nftId bs r.signature) = true := by
  rcases validateReveal_cases h with ⟨hauthentic, -, -⟩ | ⟨-, hrefused, -⟩
  · exact hauthentic.2
  · exact absurd rfl hrefused

end

end GossipValidation.GossipValidator

/-- A reveal that the node accepts is signed over the verified bytes. -/
theorem GossipValidator.verify_of_acceptReveal [Externals] {v : GossipValidator}
    {batchId poolId : UInt64} {order : Order} {bs signature : Bytes}
    (hbs : (GossipMessage.reveal batchId poolId order signature).verifiedBytes = some bs)
    (h : (v.acceptReveal order.nftId batchId ((encodeOrder order).getD []) signature).1 = true) :
    ∃ pubkey ∈ v.nftPubkeys.lookup order.nftId, verify pubkey bs signature = true := by
  obtain ⟨-, -, pubkey, hkey, hverify⟩ :=
    (v.outcome_acceptReveal order.nftId batchId ((encodeOrder order).getD [])
      signature).verdict.mp h
  rw [show encodeOrder order = some bs from hbs] at hverify
  exact ⟨pubkey, hkey, hverify⟩

/-! ## Two messages with the same bytes -/

section

attribute [local instance] SignedData.emptyReference

/-- A `BatchComplete` for one fill of EMM/KAY in batch 7 that counts two commits. -/
def twoCommits : GossipMessage :=
  .batchComplete 7 0 [69, 77, 77, 47, 75, 65, 89] 10 5 1 2 2 1 []

/-- The same with other counts: it is verified over the same bytes. -/
def nineCommits : GossipMessage :=
  .batchComplete 7 0 [69, 77, 77, 47, 75, 65, 89] 10 5 1 9 2 1 []

/-- Another volume gives other bytes. -/
theorem other_volume_other_bytes :
    twoCommits.verifiedBytes
      ≠ (GossipMessage.batchComplete 7 0 [69, 77, 77, 47, 75, 65, 89] 10 6 1 2 2 1
          []).verifiedBytes := by
  intro heq
  have hsome : twoCommits.verifiedBytes.isSome := by decide +kernel
  obtain ⟨bs, hbs⟩ := Option.isSome_iff_exists.mp hsome
  exact (GossipMessage.verifiedBytes_ne_iff (by rfl) hbs (heq ▸ hbs)).mpr (by decide) rfl

/-- So not every field is under the signature. -/
theorem counts_not_signed :
    ¬ ∀ (m m' : GossipMessage) (bs bs' : Bytes), m.signedData.kind = m'.signedData.kind →
      m.unsigned ≠ m'.unsigned → m.verifiedBytes = some bs → m'.verifiedBytes = some bs' →
        bs ≠ bs' := by
  intro h
  refine h twoCommits nineCommits (twoCommits.verifiedBytes.getD [])
    (nineCommits.verifiedBytes.getD []) ?_ ?_ ?_ ?_ ?_
  all_goals decide +kernel

end
