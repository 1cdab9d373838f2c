/-
# Can a forger silence an NFT?

The live validator deduplicates and counts commitments without looking at their signatures, in
the same hash set and the same slots that the NFT's own messages need; a reveal with a bad
signature gives both back.  So the verdicts on what an NFT signed stay as they are, whatever
else comes in, as long as no commitment that it did not sign gets ahead of it with one of its
hashes or takes its last slot (`LiveNode.verdicts_eq_of_spared`).
-/
import DeadmktNode.CommitEvidence
import DeadmktNode.ValidatorCalls

/-! ## What a message leaves behind -/

namespace GossipMessage

/-- The NFT that the message carries. -/
def sender : GossipMessage → UInt64
  | .commitment _ _ _ nftId _ => nftId
  | .reveal _ _ order _ => order.nftId
  | .batchComplete _ _ _ _ _ _ _ _ senderNftId _ => senderNftId
  | .settlementReport _ _ _ _ reporterNftId _ => reporterNftId

/-- The batch that the message carries. -/
def batch : GossipMessage → UInt64
  | .commitment batchId .. => batchId
  | .reveal batchId .. => batchId
  | .batchComplete batchId .. => batchId
  | .settlementReport batchId .. => batchId

/-- What deduplication looks at; only commitments and reveals are stored. -/
def content [Externals] : GossipMessage → Option Content
  | .commitment _ _ hash _ _ => some (.commit hash)
  | .reveal _ _ order _ => some (.reveal (sha256 ((encodeOrder order).getD [])))
  | .batchComplete .. => none
  | .settlementReport .. => none

end GossipMessage

namespace GossipValidator

/-- Adding one to slots that are below the limit keeps their order. -/
theorem add_one_le_of_lt {x y : UInt32} (hxy : x ≤ y) (hy : y < maxMsgsPerNftPerBatch) :
    x ≤ y + 1 ∧ x + 1 ≤ y + 1 := by
  have h10 : y.toNat < 10 := UInt32.lt_iff_toNat_lt.mp hy
  have hle := UInt32.le_iff_toNat_le.mp hxy
  rw [UInt32.le_iff_toNat_le, UInt32.le_iff_toNat_le, UInt32.toNat_add, UInt32.toNat_add]
  have hone : (1 : UInt32).toNat = 1 := rfl
  omega

section

variable [Externals]

/-- Validate an inbound message. -/
def receive (v : GossipValidator) : GossipMessage → Bool × GossipValidator
  | .commitment batchId _ hash nftId _ => v.acceptCommit nftId batchId hash.toList
  | .reveal batchId _ order signature =>
      v.acceptReveal order.nftId batchId ((encodeOrder order).getD []) signature
  | .batchComplete .. => (false, v)
  | .settlementReport .. => (false, v)

/-- Does the message pass the signature check?  There is none for commitments. -/
def Validates (v : GossipValidator) : GossipMessage → Prop
  | .reveal _ _ order signature =>
      ∃ key ∈ v.nftPubkeys.lookup order.nftId,
        verify key ((encodeOrder order).getD []) signature = true
  | _ => True

instance (v : GossipValidator) (msg : GossipMessage) : Decidable (v.Validates msg) := by
  cases msg <;> unfold Validates <;> infer_instance

/-- The message is in the window and new to deduplication. -/
def IsNew (v : GossipValidator) (msg : GossipMessage) (c : Content) : Prop :=
  msg.content = some c ∧ v.isBatchInRange msg.batch = true ∧ ¬ v.Seen c

instance (v : GossipValidator) (msg : GossipMessage) (c : Content) :
    Decidable (v.IsNew msg c) := by
  unfold IsNew
  infer_instance

/-- It finds a free slot as well, and its signature is good where one is asked for. -/
def Passes (v : GossipValidator) (msg : GossipMessage) : Prop :=
  (∃ c, v.IsNew msg c) ∧ v.slots msg.sender msg.batch < maxMsgsPerNftPerBatch ∧ v.Validates msg

/-- What a message does to the validator, given the verdict on it: only its own content is
remembered, after a rejection only that of a commitment, and only an accepted message takes a
slot. -/
structure Effect (v : GossipValidator) (msg : GossipMessage) (accepted : Bool)
    (v' : GossipValidator) : Prop where
  verdict : accepted = true ↔ v.Passes msg
  seen : ∀ c, v'.Seen c ↔ v.Seen c ∨ v.IsNew msg c ∧ (accepted = true ∨ ∃ hash, c = .commit hash)
  taken : ∀ nftId batchId, v'.slots nftId batchId
    = v.slots nftId batchId + if accepted = true ∧ (nftId, batchId) = (msg.sender, msg.batch)
        then 1 else 0
  keys : v'.nftPubkeys = v.nftPubkeys
  current : v'.currentBatchId = v.currentBatchId

/-- New is the content of the message, once, in its window. -/
theorem isNew_iff {v : GossipValidator} {msg : GossipMessage} {c₀ c : Content}
    (hcontent : msg.content = some c₀) :
    v.IsNew msg c ↔ c = c₀ ∧ v.isBatchInRange msg.batch = true ∧ ¬ v.Seen c₀ := by
  constructor
  · rintro ⟨hc, hrange, hseen⟩
    obtain rfl := Option.some.inj (hcontent.symm.trans hc)
    exact ⟨rfl, hrange, hseen⟩
  · rintro ⟨rfl, hrange, hseen⟩
    exact ⟨hcontent, hrange, hseen⟩

/-- A message that is handed to the validator does there what its content does. -/
theorem Effect.of_outcome {v v' : GossipValidator} {msg : GossipMessage}
    {inbound : InboundMessage} {accepted : Bool} {c₀ : Content}
    (hcontent : inbound.content = some c₀) (hsame : msg.content = some c₀)
    (hslot : (inbound.nftId, inbound.batchId) = (msg.sender, msg.batch))
    (hcommit : inbound.isCommit = true ↔ ∃ hash, c₀ = .commit hash)
    (hverified : v.Verified inbound ↔ v.Validates msg) (h : v.Outcome inbound accepted v') :
    v.Effect msg accepted v' := by
  obtain ⟨hnft, hbatch⟩ := Prod.mk.inj hslot
  have hfresh : v.Fresh inbound ↔ v.IsNew msg c₀ := by
    rw [isNew_iff hsame, and_iff_right rfl, ← hbatch, Fresh, hcontent]
    simp only [Option.mem_some_iff, forall_eq']
  refine ⟨?_, fun c => ?_, fun nftId batchId => ?_, h.keys, h.current⟩
  · rw [h.verdict, Passes, hfresh, HasSlot, hnft, hbatch, hverified]
    refine and_congr_left' ⟨fun hnew => ⟨c₀, hnew⟩, fun ⟨c, hnew⟩ => ?_⟩
    obtain ⟨rfl, -⟩ := (isNew_iff hsame).mp hnew
    exact hnew
  · rw [h.seen, hfresh, hcontent, Option.some_inj, isNew_iff hsame (c := c), hcommit,
      isNew_iff hsame]
    constructor
    · rintro (hseen | ⟨⟨-, hnew⟩, rfl, hkept⟩)
      · exact .inl hseen
      · exact .inr ⟨⟨rfl, hnew⟩, hkept⟩
    · rintro (hseen | ⟨⟨rfl, hnew⟩, hkept⟩)
      · exact .inl hseen
      · exact .inr ⟨⟨rfl, hnew⟩, rfl, hkept⟩
  · rw [h.taken, hslot]

/-- Other messages do nothing. -/
theorem effect_of_content_none (v : GossipValidator) {msg : GossipMessage}
    (h : msg.content = none) : v.Effect msg false v := by
  have hold : ∀ c, ¬ v.IsNew msg c := by
    rintro c ⟨hc, -⟩
    rw [h] at hc
    cases hc
  refine ⟨?_, fun c => ?_, fun nftId batchId => ?_, rfl, rfl⟩
  · exact iff_of_false Bool.false_ne_true fun hpasses => hpasses.1.elim hold
  · exact (or_iff_left fun hnew => hold c hnew.1).symm
  · rw [if_neg fun h => Bool.false_ne_true h.1, UInt32.add_zero]

/-- **Messages.**  Commitments and reveals are handed over; the rest is ignored. -/
theorem effect_receive (v : GossipValidator) (msg : GossipMessage) :
    v.Effect msg (v.receive msg).1 (v.receive msg).2 := by
  cases msg with
  | commitment batchId poolId hash nftId signature =>
      have hcontent : (InboundMessage.commit nftId batchId hash.toList).content
          = some (.commit hash) := by
        rw [InboundMessage.content, if_pos Vector.length_toList, Sha256.toHash32_toList]
      exact .of_outcome hcontent rfl rfl (iff_of_true rfl ⟨hash, rfl⟩) Iff.rfl
        (v.outcome_accept (.commit nftId batchId hash.toList))
  | reveal batchId poolId order signature =>
      have hreveal : ¬ ∃ hash, Content.reveal (sha256 ((encodeOrder order).getD []))
          = .commit hash := by
        rintro ⟨hash, h⟩
        cases h
      exact .of_outcome rfl rfl rfl (iff_of_false (by exact Bool.false_ne_true) hreveal)
        Iff.rfl (v.outcome_accept
          (.reveal order.nftId batchId ((encodeOrder order).getD []) signature))
  | batchComplete => exact v.effect_of_content_none rfl
  | settlementReport => exact v.effect_of_content_none rfl

end

end GossipValidator

/-! ## An NFT and its messages -/

/-- An NFT with the key under which its messages are checked. -/
structure Sender where
  nftId : UInt64
  key : VerifyingKey

namespace Sender

section

variable [Externals]

/-- Does the message carry the NFT and its signature? -/
def signs (s : Sender) : GossipMessage → Bool
  | .commitment batchId poolId hash nftId signature =>
      nftId = s.nftId && verify s.key (commitMessage batchId poolId hash.toList) signature
  | .reveal _ _ order signature =>
      order.nftId = s.nftId && verify s.key ((encodeOrder order).getD []) signature
  | .batchComplete batchId poolId symbol avgSettlementPrice volume matchCount _ _ senderNftId
      signature =>
      senderNftId = s.nftId && verify s.key ((batchCompleteMessage batchId poolId symbol
        avgSettlementPrice volume matchCount).getD []) signature
  | .settlementReport batchId matchHash settled bailerNft reporterNftId signature =>
      reporterNftId = s.nftId && verify s.key
        (settlementReportMessage batchId matchHash.toList settled bailerNft) signature

/-- The sender signs for its own NFT. -/
theorem sender_of_signs {s : Sender} {msg : GossipMessage} (h : s.signs msg = true) :
    msg.sender = s.nftId := by
  cases msg <;> exact of_decide_eq_true (Bool.and_eq_true_iff.mp h).1

/-- What the NFT signed passes the signature check under its cached key. -/
theorem validates_of_signs {s : Sender} {msg : GossipMessage} {v : GossipValidator}
    (hkey : v.nftPubkeys.lookup s.nftId = some s.key) (h : s.signs msg = true) :
    v.Validates msg := by
  cases msg with
  | reveal batchId poolId order signature =>
      obtain ⟨hnft, hverify⟩ := Bool.and_eq_true_iff.mp h
      rw [← of_decide_eq_true hnft] at hkey
      exact ⟨s.key, hkey, hverify⟩
  | commitment => trivial
  | batchComplete => trivial
  | settlementReport => trivial

/-- What the NFT still sends. -/
def contents (s : Sender) (is : List LiveNode.Input) : List Content :=
  is.filterMap fun
    | .gossip msg => if s.signs msg then msg.content else none
    | _ => none

/-- A signed message is among the contents. -/
theorem mem_contents_cons {s : Sender} {msg : GossipMessage} {c : Content}
    {is : List LiveNode.Input} (h : s.signs msg = true) (hc : msg.content = some c) :
    c ∈ s.contents (.gossip msg :: is) :=
  List.mem_filterMap.mpr ⟨_, List.mem_cons_self, (if_pos h).trans hc⟩

/-- So is what is signed later. -/
theorem mem_contents_of_mem {s : Sender} {i : LiveNode.Input} {c : Content}
    {is : List LiveNode.Input} (h : c ∈ s.contents is) : c ∈ s.contents (i :: is) := by
  obtain ⟨j, hj, hc⟩ := List.mem_filterMap.mp h
  exact List.mem_filterMap.mpr ⟨j, List.mem_cons_of_mem _ hj, hc⟩

/-- The inputs that do not depend on the other NFTs: what the NFT signed, and everything that
is neither a message nor a fetched key. -/
def keeps (s : Sender) : LiveNode.Input → Bool
  | .gossip msg => s.signs msg
  | .cachePubkey .. => false
  | _ => true

/-- The verdict on what the NFT signed. -/
def verdict (s : Sender) (n : LiveNode) : LiveNode.Input → Option Bool
  | .gossip msg => if s.signs msg then some (n.validator.receive msg).1 else none
  | _ => none

/-- The input does not get in the way of what the NFT still sends.  A message that the NFT did
not sign and that is remembered or counted has none of the contents to come, and takes slots of
the NFT in roomy batches only; there a new message of the NFT finds a free slot. -/
def Spares (s : Sender) (roomy : Finset UInt64) (n : LiveNode) (i : LiveNode.Input)
    (later : List LiveNode.Input) : Prop :=
  match i with
  | .gossip msg => ∀ c ∈ msg.content, n.validator.IsNew msg c →
      if s.signs msg then
        msg.batch ∈ roomy → n.validator.slots s.nftId msg.batch < maxMsgsPerNftPerBatch
      else n.validator.Validates msg →
        c ∉ s.contents later ∧ (msg.sender = s.nftId → msg.batch ∈ roomy)
  | .cachePubkey nftId key => nftId = s.nftId → key = s.key
  | _ => True

instance (s : Sender) (roomy : Finset UInt64) (n : LiveNode) (i : LiveNode.Input)
    (later : List LiveNode.Input) : Decidable (s.Spares roomy n i later) := by
  cases i <;> unfold Spares <;> dsimp only <;> infer_instance

/-! ## Two validators that look the same to the NFT -/

/-- Both know the key of the NFT and agree on the contents that it still sends.  The first one
may have counted more, but only in roomy batches. -/
structure LooksSame (s : Sender) (roomy : Finset UInt64) (later : List LiveNode.Input)
    (v v' : GossipValidator) : Prop where
  key : v.nftPubkeys.lookup s.nftId = some s.key
  key' : v'.nftPubkeys.lookup s.nftId = some s.key
  current : v.currentBatchId = v'.currentBatchId
  seen : ∀ c ∈ s.contents later, (v.Seen c ↔ v'.Seen c)
  slots_le : ∀ b, v'.slots s.nftId b ≤ v.slots s.nftId b
  slots_eq : ∀ b, b ∉ roomy → v'.slots s.nftId b = v.slots s.nftId b

/-- A validator looks like itself. -/
theorem LooksSame.refl {s : Sender} {v : GossipValidator}
    (hkey : v.nftPubkeys.lookup s.nftId = some s.key) (roomy : Finset UInt64)
    (later : List LiveNode.Input) : s.LooksSame roomy later v v :=
  ⟨hkey, hkey, rfl, fun _ _ => Iff.rfl, fun _ => UInt32.le_refl _, fun _ _ => rfl⟩

/-- What looks the same keeps doing so with less to come. -/
theorem LooksSame.tail {s : Sender} {roomy : Finset UInt64} {i : LiveNode.Input}
    {is : List LiveNode.Input} {v v' : GossipValidator} (h : s.LooksSame roomy (i :: is) v v') :
    s.LooksSame roomy is v v' :=
  ⟨h.key, h.key', h.current, fun c hc => h.seen c (mem_contents_of_mem hc), h.slots_le, h.slots_eq⟩

/-- A signed message is new to both or to neither. -/
theorem LooksSame.isNew_iff {s : Sender} {roomy : Finset UInt64} {msg : GossipMessage}
    {is : List LiveNode.Input} {v v' : GossipValidator}
    (h : s.LooksSame roomy (.gossip msg :: is) v v') (hsigns : s.signs msg = true) (c : Content) :
    v.IsNew msg c ↔ v'.IsNew msg c := by
  refine and_congr_right fun hc => ?_
  rw [h.seen c (mem_contents_cons hsigns hc), GossipValidator.isBatchInRange,
    GossipValidator.isBatchInRange, h.current]

/-- **A message of the NFT** gets the same verdict, and the validators look the same after it. -/
theorem LooksSame.receive {s : Sender} {roomy : Finset UInt64} {msg : GossipMessage}
    {is : List LiveNode.Input} {n n' : LiveNode}
    (h : s.LooksSame roomy (.gossip msg :: is) n.validator n'.validator)
    (hsigns : s.signs msg = true) (hspares : s.Spares roomy n (.gossip msg) is) :
    (n.validator.receive msg).1 = (n'.validator.receive msg).1 ∧
      s.LooksSame roomy is (n.validator.receive msg).2 (n'.validator.receive msg).2 := by
  have e := n.validator.effect_receive msg
  have e' := n'.validator.effect_receive msg
  have hsender := sender_of_signs hsigns
  have hnew := h.isNew_iff hsigns
  -- in a roomy batch both validators have a slot left, in any other the same number
  have hslot : (∃ c, n.validator.IsNew msg c) →
      (n.validator.slots msg.sender msg.batch < maxMsgsPerNftPerBatch ↔
        n'.validator.slots msg.sender msg.batch < maxMsgsPerNftPerBatch) := by
    rintro ⟨c, hc⟩
    rw [hsender]
    by_cases hroomy : msg.batch ∈ roomy
    · have hfree : n.validator.slots s.nftId msg.batch < maxMsgsPerNftPerBatch := by
        have hall := hspares c hc.1 hc
        rw [if_pos hsigns] at hall
        exact hall hroomy
      exact iff_of_true hfree (UInt32.lt_of_le_of_lt (h.slots_le _) hfree)
    · rw [h.slots_eq _ hroomy]
  have hpass : n.validator.Passes msg ↔ n'.validator.Passes msg := by
    unfold GossipValidator.Passes
    rw [← exists_congr hnew]
    refine and_congr_right fun hex => ?_
    rw [hslot hex]
    exact and_congr_right fun _ =>
      iff_of_true (validates_of_signs h.key hsigns) (validates_of_signs h.key' hsigns)
  have hverdict : (n.validator.receive msg).1 = (n'.validator.receive msg).1 :=
    Bool.eq_iff_iff.mpr (e.verdict.trans (hpass.trans e'.verdict.symm))
  refine ⟨hverdict, ?_, ?_, ?_, ?_, ?_, ?_⟩
  · rw [e.keys]
    exact h.key
  · rw [e'.keys]
    exact h.key'
  · rw [e.current, e'.current]
    exact h.current
  · intro c hc
    rw [e.seen, e'.seen, h.tail.seen c hc, hnew c, hverdict]
  · intro b
    rw [e.taken, e'.taken, hverdict]
    split_ifs with htaken
    · obtain ⟨hacc, hb⟩ := htaken
      obtain ⟨hnft, rfl⟩ := Prod.mk.inj hb
      have hfree := (e.verdict.mp (hverdict.trans hacc)).2.1
      rw [← hnft] at hfree
      exact (GossipValidator.add_one_le_of_lt (h.slots_le _) hfree).2
    · rw [UInt32.add_zero, UInt32.add_zero]
      exact h.slots_le b
  · intro b hb
    rw [e.taken, e'.taken, hverdict, h.slots_eq b hb]

/-- **A message that the NFT did not sign** leaves the validators looking the same, whether or
not the second one receives it. -/
theorem LooksSame.receive_left {s : Sender} {roomy : Finset UInt64} {msg : GossipMessage}
    {is : List LiveNode.Input} {n : LiveNode} {v' : GossipValidator}
    (h : s.LooksSame roomy (.gossip msg :: is) n.validator v')
    (hsigns : s.signs msg = false) (hspares : s.Spares roomy n (.gossip msg) is) :
    s.LooksSame roomy is (n.validator.receive msg).2 v' := by
  have e := n.validator.effect_receive msg
  have hspares' : ∀ c, n.validator.IsNew msg c → n.validator.Validates msg →
      c ∉ s.contents is ∧ (msg.sender = s.nftId → msg.batch ∈ roomy) := by
    intro c hc
    have hall := hspares c hc.1 hc
    rwa [if_neg (by rw [hsigns]; exact Bool.false_ne_true)] at hall
  refine ⟨?_, h.key', ?_, ?_, ?_, ?_⟩
  · rw [e.keys]
    exact h.key
  · rw [e.current]
    exact h.current
  · intro c hc
    rw [e.seen, or_iff_left, h.tail.seen c hc]
    -- an accepted reveal has a good signature, and a commitment needs none
    rintro ⟨hnew, hacc | ⟨hash, rfl⟩⟩
    · exact (hspares' c hnew (e.verdict.mp hacc).2.2).1 hc
    · refine (hspares' _ hnew ?_).1 hc
      cases msg with
      | reveal => cases hnew.1
      | commitment => trivial
      | batchComplete => trivial
      | settlementReport => trivial
  · intro b
    rw [e.taken]
    split_ifs with htaken
    · obtain ⟨hacc, hb⟩ := htaken
      obtain ⟨hnft, rfl⟩ := Prod.mk.inj hb
      have hfree := (e.verdict.mp hacc).2.1
      rw [← hnft] at hfree
      exact (GossipValidator.add_one_le_of_lt (h.slots_le _) hfree).1
    · rw [UInt32.add_zero]
      exact h.slots_le b
  · intro b hb
    rw [e.taken, if_neg, UInt32.add_zero, h.slots_eq b hb]
    rintro ⟨hacc, heq⟩
    obtain ⟨hnft, rfl⟩ := Prod.mk.inj heq
    obtain ⟨⟨c, hnew⟩, -, hgood⟩ := e.verdict.mp hacc
    exact hb ((hspares' c hnew hgood).2 hnft.symm)

/-- Keys of others make no difference. -/
theorem LooksSame.cachePubkey {s : Sender} {roomy : Finset UInt64} {nftId : UInt64}
    {key : VerifyingKey} {is : List LiveNode.Input} {v v' : GossipValidator}
    (h : s.LooksSame roomy (.cachePubkey nftId key :: is) v v')
    (hkey : nftId = s.nftId → key = s.key) :
    s.LooksSame roomy is (v.cachePubkey nftId key) v' := by
  refine ⟨?_, h.key', h.current, fun c hc => ?_, h.slots_le, h.slots_eq⟩
  -- a key fetched for the NFT itself is the cached one
  · rw [GossipValidator.cachePubkey]
    dsimp only
    by_cases hnft : nftId = s.nftId
    · rw [hnft, AList.lookup_insert, hkey hnft]
    · rw [AList.lookup_insert_ne (Ne.symm hnft), h.key]
  · rw [← h.tail.seen c hc]
    cases c <;> exact Iff.rfl

section

variable {s : Sender} {roomy : Finset UInt64} {later : List LiveNode.Input}
  {v v' : GossipValidator}

/-- Neither does a new batch, -/
theorem LooksSame.updateBatch (h : s.LooksSame roomy later v v') (newBatchId : UInt64) :
    s.LooksSame roomy later (v.updateBatch newBatchId) (v'.updateBatch newBatchId) := by
  rw [GossipValidator.updateBatch_eq, GossipValidator.updateBatch_eq, ← h.current]
  refine ⟨h.key, h.key', rfl, fun c hc => ?_, h.slots_le, h.slots_eq⟩
  have hseen := h.seen c hc
  cases c <;> exact hseen

/-- nor expiry, -/
theorem LooksSame.expireOldBatches (h : s.LooksSame roomy later v v') :
    s.LooksSame roomy later v.expireOldBatches v'.expireOldBatches := by
  refine ⟨?_, ?_, ?_, fun c hc => ?_, fun b => ?_, fun b hb => ?_⟩
  · rw [GossipValidator.nftPubkeys_expireOldBatches, h.key]
  · rw [GossipValidator.nftPubkeys_expireOldBatches, h.key']
  · rw [GossipValidator.currentBatchId_expireOldBatches,
      GossipValidator.currentBatchId_expireOldBatches, h.current]
  · rw [GossipValidator.seen_expireOldBatches, GossipValidator.seen_expireOldBatches,
      h.current, h.seen c hc]
  · rw [GossipValidator.slots_expireOldBatches, GossipValidator.slots_expireOldBatches, h.current]
    split_ifs
    · exact h.slots_le b
    · exact UInt32.le_refl _
  · rw [GossipValidator.slots_expireOldBatches, GossipValidator.slots_expireOldBatches, h.current,
      h.slots_eq b hb]

/-- nor statistics. -/
theorem LooksSame.resetStats (h : s.LooksSame roomy later v v') :
    s.LooksSame roomy later v.resetStats v'.resetStats := by
  refine ⟨h.key, h.key', h.current, fun c hc => ?_, h.slots_le, h.slots_eq⟩
  have hseen := h.seen c hc
  cases c <;> exact hseen

end

end

end Sender

/-! ## Runs -/

namespace LiveNode

section

variable [Externals]

/-- The validator decides on its own. -/
theorem validator_processInboundGossip (n : LiveNode) (msg : GossipMessage) :
    (n.processInboundGossip msg).validator = (n.validator.receive msg).2 := by
  cases msg with
  | commitment =>
      unfold processInboundGossip GossipValidator.receive
      dsimp only
      split <;> simp [*]
  | reveal =>
      unfold processInboundGossip GossipValidator.receive
      dsimp only
      split <;> simp [*]
  | batchComplete => rfl
  | settlementReport => rfl

/-- What an input that is kept does to validators that look the same. -/
theorem looksSame_handle {s : Sender} {roomy : Finset UInt64} {i : Input} {is : List Input}
    {n n' : LiveNode} (hkeep : s.keeps i = true) (hspares : s.Spares roomy n i is)
    (h : s.LooksSame roomy (i :: is) n.validator n'.validator) :
    s.verdict n i = s.verdict n' i ∧
      s.LooksSame roomy is (n.handle i).1.validator (n'.handle i).1.validator := by
  cases i with
  | gossip msg =>
      have hsigns : s.signs msg = true := hkeep
      obtain ⟨hverdict, hafter⟩ := h.receive hsigns hspares
      refine ⟨?_, ?_⟩
      · rw [Sender.verdict, Sender.verdict, if_pos hsigns, if_pos hsigns, hverdict]
      · rw [handle, handle, validator_processInboundGossip, validator_processInboundGossip]
        exact hafter
  | cachePubkey => exact absurd hkeep Bool.false_ne_true
  | boundary newBatchId => exact ⟨rfl, (h.tail.updateBatch newBatchId).expireOldBatches.resetStats⟩
  | advance => exact ⟨rfl, h.tail⟩
  | setNumPools => exact ⟨rfl, h.tail⟩
  | commit => exact ⟨rfl, h.tail⟩
  | reveal => exact ⟨rfl, h.tail⟩
  | runMatch => exact ⟨rfl, h.tail⟩

/-- What an input that is left out does to one of them. -/
theorem looksSame_handle_left {s : Sender} {roomy : Finset UInt64} {i : Input} {is : List Input}
    {n n' : LiveNode} (hkeep : s.keeps i = false) (hspares : s.Spares roomy n i is)
    (h : s.LooksSame roomy (i :: is) n.validator n'.validator) :
    s.verdict n i = none ∧ s.LooksSame roomy is (n.handle i).1.validator n'.validator := by
  cases i with
  | gossip msg =>
      have hsigns : s.signs msg = false := hkeep
      refine ⟨if_neg (by rw [hsigns]; exact Bool.false_ne_true), ?_⟩
      rw [handle, validator_processInboundGossip]
      exact h.receive_left hsigns hspares
  | cachePubkey nftId key => exact ⟨rfl, h.cachePubkey hspares⟩
  | boundary => exact absurd hkeep.symm Bool.false_ne_true
  | advance => exact absurd hkeep.symm Bool.false_ne_true
  | setNumPools => exact absurd hkeep.symm Bool.false_ne_true
  | commit => exact absurd hkeep.symm Bool.false_ne_true
  | reveal => exact absurd hkeep.symm Bool.false_ne_true
  | runMatch => exact absurd hkeep.symm Bool.false_ne_true

/-- The verdicts on what the NFT signed are those without the other NFTs. -/
theorem trace_verdict_filter {n : LiveNode} {s : Sender} {roomy : Finset UInt64}
    (hkey : n.validator.nftPubkeys.lookup s.nftId = some s.key) {is : List Input}
    (hspares : system.FollowsAhead (s.Spares roomy) n is) :
    system.trace s.verdict n is = system.trace s.verdict n (is.filter s.keeps) := by
  refine system.trace_filter s.verdict s.keeps
    (R := fun later n n' => s.LooksSame roomy later n.validator n'.validator) ?_ ?_
    (Sender.LooksSame.refl hkey roomy is) hspares
  · intro n n' i is hkeep hspare h
    obtain ⟨hverdict, hafter⟩ := looksSame_handle hkeep hspare h
    exact ⟨hverdict, .some hafter⟩
  · intro n n' i is hkeep hspare h
    obtain ⟨hverdict, hafter⟩ := looksSame_handle_left hkeep hspare h
    exact ⟨hverdict, _, rfl, hafter⟩

/-- **No censorship by those who spare the NFT.**  Two sequences that differ in messages which
the NFT did not sign give it the same verdicts, if those messages spare it. -/
theorem verdicts_eq_of_spared {n : LiveNode} {s : Sender} {roomy roomy' : Finset UInt64}
    {is is' : List Input} (hkey : n.validator.nftPubkeys.lookup s.nftId = some s.key)
    (hsame : is.filter s.keeps = is'.filter s.keeps)
    (hspares : system.FollowsAhead (s.Spares roomy) n is)
    (hspares' : system.FollowsAhead (s.Spares roomy') n is') :
    system.trace s.verdict n is = system.trace s.verdict n is' := by
  rw [trace_verdict_filter hkey hspares, hsame, ← trace_verdict_filter hkey hspares']

end

/-! ### Forged commitments -/

section

attribute [local instance] GossipValidation.commitExternals

/-- NFT 2 with its key. -/
def buyer : Sender := ⟨2, buyerKey⟩

/-- NFT 2 commits to its buy and reveals it. -/
def buyerMessages : List GossipMessage :=
  let c := GossipValidation.buyCommit
  [.commitment c.batchId c.poolId c.hash c.nftId c.signature, .reveal 7 0 sampleBuy buySignature]

/-- Someone else's commitment to the same hash, and ten in the name of NFT 2, all unsigned. -/
def forgedCommitments : List GossipMessage :=
  .commitment 7 0 GossipValidation.buyHash 1 [] ::
    (List.range 10).map fun k => .commitment 7 0 (Vector.replicate 32 (UInt8.ofNat k)) 2 []

/-- After the commitment they do no harm, if they leave a slot for the reveal. -/
theorem late_forgeries_spare :
    system.trace buyer.verdict (sampleNode 1)
        ((buyerMessages.take 1 ++ forgedCommitments.take 9 ++ buyerMessages.drop 1).map .gossip)
      = system.trace buyer.verdict (sampleNode 1) (buyerMessages.map .gossip) := by
  have hsame : ((buyerMessages.take 1 ++ forgedCommitments.take 9 ++ buyerMessages.drop 1).map
      Input.gossip).filter buyer.keeps = (buyerMessages.map Input.gossip).filter buyer.keeps := by
    rw [List.filter_map, List.filter_map]
    exact congrArg _ (by decide +kernel)
  have hspares : system.FollowsAhead (buyer.Spares {7}) (sampleNode 1)
      ((buyerMessages.take 1 ++ forgedCommitments.take 9 ++ buyerMessages.drop 1).map .gossip) := by
    decide +kernel
  have hspares' : system.FollowsAhead (buyer.Spares ∅) (sampleNode 1)
      (buyerMessages.map .gossip) := by
    decide +kernel
  exact verdicts_eq_of_spared rfl hsame hspares hspares'

/-- Before it they censor both messages. -/
theorem forged_commitments_censor :
    (sampleNode 1).validator.nftPubkeys.lookup 2 = some buyerKey ∧
      forgedCommitments.all (fun msg => !buyer.signs msg) = true ∧
      system.trace buyer.verdict (sampleNode 1) (buyerMessages.map .gossip) = [true, true] ∧
      system.trace buyer.verdict (sampleNode 1) ((forgedCommitments ++ buyerMessages).map .gossip)
        = [false, false] := by
  decide +kernel

end

end LiveNode
