/-
# Calls of the live validator

The one fact about the two functions that accept messages: what a call does to the hash sets,
the counts and the keys of the validator, given its verdict (`outcome_accept`).  The properties
of deduplication and of the message limit follow from it.
-/
import DeadmktNode.GossipValidator
import DeadmktNode.Runs

/-! ## What a message leaves behind -/

/-- What deduplication remembers of a message. -/
inductive Content where
  | commit (hash : Hash32)
  | reveal (hash : Hash32)
deriving DecidableEq

/-- A message as the validator is handed it. -/
inductive InboundMessage where
  | commit (nftId batchId : UInt64) (commitHash : Bytes)
  | reveal (nftId batchId : UInt64) (orderBytes signature : Bytes)
deriving DecidableEq

namespace InboundMessage

/-- The sender. -/
def nftId : InboundMessage → UInt64
  | .commit nftId .. => nftId
  | .reveal nftId .. => nftId

/-- The batch. -/
def batchId : InboundMessage → UInt64
  | .commit _ batchId _ => batchId
  | .reveal _ batchId _ _ => batchId

/-- What deduplication looks at: a hash of 32 bytes, or the hash of order bytes. -/
def content [Externals] : InboundMessage → Option Content
  | .commit _ _ commitHash =>
      if commitHash.length = 32 then some (.commit (Sha256.toHash32 commitHash)) else none
  | .reveal _ _ orderBytes _ => some (.reveal (sha256 orderBytes))

/-- Is it a commit? -/
def isCommit : InboundMessage → Bool
  | .commit .. => true
  | .reveal .. => false

end InboundMessage

namespace GossipValidator

/-- The messages that count against the limit of an NFT in a batch. -/
def slots (v : GossipValidator) (nftId batchId : UInt64) : UInt32 :=
  (v.msgCounts.lookup (nftId, batchId)).getD 0

/-- Does deduplication know the content? -/
def Seen (v : GossipValidator) : Content → Prop
  | .commit hash => hash ∈ v.seenCommitHashes
  | .reveal hash => hash ∈ v.seenRevealHashes

instance (v : GossipValidator) (c : Content) : Decidable (v.Seen c) := by
  cases c <;> unfold Seen <;> infer_instance

/-- Without a free slot the message is refused, and the slots stay as they are. -/
theorem checkRateLimit_of_full {v : GossipValidator} {nftId batchId : UInt64}
    (h : maxMsgsPerNftPerBatch ≤ v.slots nftId batchId) :
    v.checkRateLimit nftId batchId = (false, { v with
      msgCounts := v.msgCounts.insert (nftId, batchId) (v.slots nftId batchId)
      rejectedRate := v.rejectedRate + 1 }) :=
  if_pos h

/-- A message that finds a free slot takes it. -/
theorem checkRateLimit_of_free {v : GossipValidator} {nftId batchId : UInt64}
    (h : v.slots nftId batchId < maxMsgsPerNftPerBatch) :
    v.checkRateLimit nftId batchId = (true, { v with
      msgCounts := v.msgCounts.insert (nftId, batchId) (v.slots nftId batchId + 1) }) :=
  if_neg (UInt32.not_le.mpr h)

/-! ### Maintenance -/

/-- Following the chain's batch changes nothing else. -/
theorem updateBatch_eq (v : GossipValidator) (newBatchId : UInt64) :
    v.updateBatch newBatchId =
      { v with currentBatchId := if v.currentBatchId < newBatchId then newBatchId
          else v.currentBatchId } := by
  unfold updateBatch
  split_ifs <;> rfl

/-- Expiry keeps the batch. -/
theorem currentBatchId_expireOldBatches (v : GossipValidator) :
    v.expireOldBatches.currentBatchId = v.currentBatchId := by
  unfold expireOldBatches
  dsimp only
  split_ifs <;> rfl

/-- It keeps the keys. -/
theorem nftPubkeys_expireOldBatches (v : GossipValidator) :
    v.expireOldBatches.nftPubkeys = v.nftPubkeys := by
  unfold expireOldBatches
  dsimp only
  split_ifs <;> rfl

/-- Every fifth batch deduplication forgets everything. -/
theorem seen_expireOldBatches (v : GossipValidator) (c : Content) :
    v.expireOldBatches.Seen c ↔ v.currentBatchId % batchWindow ≠ 0 ∧ v.Seen c := by
  unfold expireOldBatches
  dsimp only
  split_ifs with hfifth <;> cases c <;> simp [Seen, hfifth]

/-- The counts of batches below the window are dropped. -/
theorem lookup_msgCounts_expireOldBatches (v : GossipValidator) (slot : UInt64 × UInt64) :
    v.expireOldBatches.msgCounts.lookup slot
      = if v.currentBatchId.saturatingSub batchWindow ≤ slot.2 then v.msgCounts.lookup slot
        else none := by
  have hcounts : v.expireOldBatches.msgCounts = v.msgCounts.retain
      (fun k _ => v.currentBatchId.saturatingSub batchWindow ≤ k.2) := by
    unfold expireOldBatches
    dsimp only
    split_ifs <;> rfl
  rw [hcounts, AList.lookup_retain]
  cases v.msgCounts.lookup slot with
  | none => simp
  | some count => simp [Option.filter_some]

/-- Below the window all slots are free again. -/
theorem slots_expireOldBatches (v : GossipValidator) (nftId batchId : UInt64) :
    v.expireOldBatches.slots nftId batchId
      = if v.currentBatchId.saturatingSub batchWindow ≤ batchId then v.slots nftId batchId
        else 0 := by
  rw [slots, lookup_msgCounts_expireOldBatches]
  split_ifs <;> rfl

section

variable [Externals]

/-! ## Messages -/

/-- Validate a message. -/
def accept (v : GossipValidator) : InboundMessage → Bool × GossipValidator
  | .commit nftId batchId commitHash => v.acceptCommit nftId batchId commitHash
  | .reveal nftId batchId orderBytes signature =>
      v.acceptReveal nftId batchId orderBytes signature

/-- The message is in the window and new to deduplication. -/
def Fresh (v : GossipValidator) (msg : InboundMessage) : Prop :=
  v.isBatchInRange msg.batchId = true ∧ ∀ c ∈ msg.content, ¬ v.Seen c

/-- A slot is left for the message. -/
def HasSlot (v : GossipValidator) (msg : InboundMessage) : Prop :=
  v.slots msg.nftId msg.batchId < maxMsgsPerNftPerBatch

/-- The message passes the signature check.  There is none for commits. -/
def Verified (v : GossipValidator) : InboundMessage → Prop
  | .commit .. => True
  | .reveal nftId _ orderBytes signature =>
      ∃ key ∈ v.nftPubkeys.lookup nftId, verify key orderBytes signature = true

instance (v : GossipValidator) (msg : InboundMessage) : Decidable (v.Fresh msg) := by
  unfold Fresh
  infer_instance

instance (v : GossipValidator) (msg : InboundMessage) : Decidable (v.HasSlot msg) := by
  unfold HasSlot
  infer_instance

instance (v : GossipValidator) (msg : InboundMessage) : Decidable (v.Verified msg) := by
  cases msg <;> unfold Verified <;> infer_instance

/-- What a message does to the validator, given the verdict on it.  A new message has its
count stored, also if it is refused; only an accepted message raises it.  Deduplication keeps
the content of an accepted message, and that of a commit also if it is refused. -/
structure Outcome (v : GossipValidator) (msg : InboundMessage) (accepted : Bool)
    (v' : GossipValidator) : Prop where
  verdict : accepted = true ↔ v.Fresh msg ∧ v.HasSlot msg ∧ v.Verified msg
  seen : ∀ c, v'.Seen c ↔ v.Seen c ∨
    (v.Fresh msg ∧ msg.content = some c ∧ (accepted = true ∨ msg.isCommit = true))
  counts : ∀ slot, v'.msgCounts.lookup slot =
    if v.Fresh msg ∧ slot = (msg.nftId, msg.batchId) then
      some (v.slots msg.nftId msg.batchId + if accepted = true then 1 else 0)
    else v.msgCounts.lookup slot
  keys : v'.nftPubkeys = v.nftPubkeys
  current : v'.currentBatchId = v.currentBatchId

variable {v v' : GossipValidator} {msg : InboundMessage} {accepted : Bool}

/-- A message that is not new changes nothing. -/
theorem Outcome.of_stale (hstale : ¬ v.Fresh msg)
    (hcommits : v'.seenCommitHashes = v.seenCommitHashes)
    (hreveals : v'.seenRevealHashes = v.seenRevealHashes) (hcounts : v'.msgCounts = v.msgCounts)
    (hkeys : v'.nftPubkeys = v.nftPubkeys) (hcurrent : v'.currentBatchId = v.currentBatchId) :
    v.Outcome msg false v' where
  verdict := iff_of_false Bool.false_ne_true fun h => hstale h.1
  seen c := by
    rw [or_iff_left fun h => hstale h.1]
    cases c with
    | commit hash => rw [Seen, hcommits, Seen]
    | reveal hash => rw [Seen, hreveals, Seen]
  counts slot := by rw [hcounts, if_neg fun h => hstale h.1]
  keys := hkeys
  current := hcurrent

/-- A new message. -/
theorem Outcome.of_fresh (hfresh : v.Fresh msg)
    (hverdict : accepted = true ↔ v.HasSlot msg ∧ v.Verified msg)
    (hseen : ∀ c, v'.Seen c ↔ v.Seen c ∨
      (msg.content = some c ∧ (accepted = true ∨ msg.isCommit = true)))
    (hcounts : ∀ slot, v'.msgCounts.lookup slot =
      if slot = (msg.nftId, msg.batchId) then
        some (v.slots msg.nftId msg.batchId + if accepted = true then 1 else 0)
      else v.msgCounts.lookup slot)
    (hkeys : v'.nftPubkeys = v.nftPubkeys) (hcurrent : v'.currentBatchId = v.currentBatchId) :
    v.Outcome msg accepted v' where
  verdict := by rw [hverdict, and_iff_right hfresh]
  seen c := by rw [hseen, and_iff_right hfresh]
  counts slot := by
    rw [hcounts]
    exact if_congr (and_iff_right hfresh).symm rfl rfl
  keys := hkeys
  current := hcurrent

omit [Externals] in
/-- A slot that was taken is given back. -/
theorem lookup_uncount {nftId batchId : UInt64} {count : UInt32}
    (h : v'.msgCounts = v.msgCounts.insert (nftId, batchId) (count + 1))
    (hfree : count < maxMsgsPerNftPerBatch) (slot : UInt64 × UInt64) :
    (v'.uncount nftId batchId).msgCounts.lookup slot
      = if slot = (nftId, batchId) then some count else v.msgCounts.lookup slot := by
  have hone : 1 ≤ count + 1 := by
    have h10 : count.toNat < 10 := UInt32.lt_iff_toNat_lt.mp hfree
    rw [UInt32.le_iff_toNat_le, UInt32.toNat_add]
    simp
    omega
  unfold uncount
  dsimp only
  split_ifs with heq
  · rw [heq, AList.lookup_modify, h, AList.lookup_insert, Option.map_some, if_pos hone,
      UInt32.add_sub_cancel]
  · rw [AList.lookup_modify_ne _ _ heq, h, AList.lookup_insert_ne heq]

/-! ### Commits -/

section

variable (v : GossipValidator) (nftId batchId : UInt64) (commitHash : Bytes)

/-- Counting a commit decides on it; what deduplication has remembered stays. -/
theorem outcome_counted (hfresh : v.Fresh (.commit nftId batchId commitHash))
    {v₁ : GossipValidator} (hcounts : v₁.msgCounts = v.msgCounts)
    (hkeys : v₁.nftPubkeys = v.nftPubkeys) (hcurrent : v₁.currentBatchId = v.currentBatchId)
    (hseen : ∀ c, v₁.Seen c ↔
      v.Seen c ∨ (InboundMessage.commit nftId batchId commitHash).content = some c) :
    let counted := match v₁.checkRateLimit nftId batchId with
      | (false, v) => (false, v)
      | (true, v) => (true, { v with accepted := v.accepted + 1 })
    v.Outcome (.commit nftId batchId commitHash) counted.1 counted.2 := by
  have hslots : v₁.slots nftId batchId = v.slots nftId batchId := by
    rw [slots, hcounts, slots]
  -- below the limit a slot is taken, at the limit none
  by_cases hslot : v.slots nftId batchId < maxMsgsPerNftPerBatch
  · rw [checkRateLimit_of_free (hslots ▸ hslot)]
    refine .of_fresh hfresh (iff_of_true rfl ⟨hslot, trivial⟩) ?_ ?_ hkeys hcurrent
    · intro c
      rw [and_iff_left (.inl rfl)]
      exact hseen c
    · intro slot
      refine (AList.lookup_insert_ite ..).trans ?_
      rw [hslots, hcounts]
      rfl
  · have hfull := UInt32.not_lt.mp hslot
    rw [checkRateLimit_of_full (hslots ▸ hfull)]
    refine .of_fresh hfresh (iff_of_false Bool.false_ne_true fun h => hslot h.1) ?_ ?_
      hkeys hcurrent
    · intro c
      rw [and_iff_left (.inr rfl)]
      exact hseen c
    · intro slot
      refine (AList.lookup_insert_ite ..).trans ?_
      rw [hslots, hcounts, if_neg Bool.false_ne_true, UInt32.add_zero]
      rfl

/-- What becomes of a commit. -/
theorem outcome_acceptCommit :
    v.Outcome (.commit nftId batchId commitHash) (v.acceptCommit nftId batchId commitHash).1
      (v.acceptCommit nftId batchId commitHash).2 := by
  unfold acceptCommit
  by_cases hrange : v.isBatchInRange batchId = true
  · rw [if_neg (by rw [hrange]; exact Bool.false_ne_true)]
    -- a hash of another length is counted but never remembered
    by_cases hlength : commitHash.length = 32
    · have hcontent : (InboundMessage.commit nftId batchId commitHash).content
          = some (.commit (Sha256.toHash32 commitHash)) := if_pos hlength
      dsimp only
      rw [if_pos hlength]
      by_cases hknown : Sha256.toHash32 commitHash ∈ v.seenCommitHashes
      · rw [if_pos hknown]
        exact .of_stale (fun h => h.2 _ hcontent hknown) rfl rfl rfl rfl rfl
      · rw [if_neg hknown]
        refine v.outcome_counted nftId batchId commitHash ⟨hrange, ?_⟩ rfl rfl rfl ?_
        · rintro c hc hseen
          obtain rfl := Option.some.inj (hcontent.symm.trans hc)
          exact hknown hseen
        · intro c
          rw [hcontent, Option.some.injEq]
          cases c with
          | commit hash => simp [Seen, or_comm, eq_comm]
          | reveal hash => simp [Seen]
    · have hcontent : (InboundMessage.commit nftId batchId commitHash).content = none :=
        if_neg hlength
      dsimp only
      rw [if_neg hlength]
      refine v.outcome_counted nftId batchId commitHash ⟨hrange, ?_⟩ rfl rfl rfl ?_
      · rintro c hc
        rw [hcontent] at hc
        cases hc
      · intro c
        rw [hcontent, or_iff_left (by simp)]
  · rw [if_pos (by simpa using hrange)]
    exact .of_stale (fun h => hrange h.1) rfl rfl rfl rfl rfl

end

/-! ### Reveals -/

/-- A new reveal that is refused: everything is as before, but its count is stored. -/
theorem Outcome.of_refused (hfresh : v.Fresh msg) (hreveal : msg.isCommit = false)
    (hverdict : ¬ (v.HasSlot msg ∧ v.Verified msg)) (hseen : ∀ c, v'.Seen c ↔ v.Seen c)
    (hcounts : ∀ slot, v'.msgCounts.lookup slot =
      if slot = (msg.nftId, msg.batchId) then some (v.slots msg.nftId msg.batchId)
      else v.msgCounts.lookup slot)
    (hkeys : v'.nftPubkeys = v.nftPubkeys) (hcurrent : v'.currentBatchId = v.currentBatchId) :
    v.Outcome msg false v' := by
  refine .of_fresh hfresh (iff_of_false Bool.false_ne_true hverdict) (fun c => ?_) (fun slot => ?_)
    hkeys hcurrent
  · rw [hseen, or_iff_left]
    rintro ⟨-, hfalse | hcommit⟩
    · exact Bool.false_ne_true hfalse
    · rw [hreveal] at hcommit
      exact Bool.false_ne_true hcommit
  · rw [hcounts, if_neg Bool.false_ne_true, UInt32.add_zero]

section

variable (v : GossipValidator) (nftId batchId : UInt64) (orderBytes signature : Bytes)

/-- With a cached key, a reveal is verified if its signature is good under the key. -/
theorem verified_reveal_iff {key : VerifyingKey} (hkey : v.nftPubkeys.lookup nftId = some key) :
    v.Verified (.reveal nftId batchId orderBytes signature) ↔
      verify key orderBytes signature = true := by
  dsimp only [Verified]
  rw [hkey]
  simp only [Option.mem_some_iff, exists_eq_left']

/-- A new reveal is remembered if its signature is good; otherwise it gives everything back. -/
theorem outcome_acceptReveal_of_fresh
    (hfresh : v.Fresh (.reveal nftId batchId orderBytes signature)) :
    v.Outcome (.reveal nftId batchId orderBytes signature)
      (v.acceptReveal nftId batchId orderBytes signature).1
      (v.acceptReveal nftId batchId orderBytes signature).2 := by
  have hrange : v.isBatchInRange batchId = true := hfresh.1
  have hnew : sha256 orderBytes ∉ v.seenRevealHashes := hfresh.2 _ rfl
  have hcontent : ∀ c, (InboundMessage.reveal nftId batchId orderBytes signature).content = some c ↔
      .reveal (sha256 orderBytes) = c := fun _ => Option.some_inj
  unfold acceptReveal
  rw [if_neg (by rw [hrange]; exact Bool.false_ne_true)]
  dsimp only
  rw [if_neg hnew]
  generalize sha256 orderBytes = contentHash at hnew hcontent ⊢
  let v₁ : GossipValidator := { v with seenRevealHashes := insert contentHash v.seenRevealHashes }
  -- what is left once the content hash is taken back
  have hforgotten : ∀ v' : GossipValidator, v'.seenCommitHashes = v.seenCommitHashes →
      v'.seenRevealHashes = v₁.seenRevealHashes.erase contentHash →
      ∀ c, v'.Seen c ↔ v.Seen c := by
    intro v' hcommits hreveals c
    have herase : v₁.seenRevealHashes.erase contentHash = v.seenRevealHashes :=
      Finset.erase_insert hnew
    cases c with
    | commit hash => rw [Seen, hcommits, Seen]
    | reveal hash => rw [Seen, hreveals, herase, Seen]
  by_cases hslot : v.slots nftId batchId < maxMsgsPerNftPerBatch
  · rw [show v₁.checkRateLimit nftId batchId = _ from checkRateLimit_of_free hslot]
    dsimp only
    cases hkey : v.nftPubkeys.lookup nftId with
    | none =>
        have hbad : ¬ v.Verified (.reveal nftId batchId orderBytes signature) := by
          rintro ⟨key, hmem, -⟩
          rw [hkey] at hmem
          cases hmem
        exact .of_refused hfresh rfl (fun h => hbad h.2) (hforgotten _ rfl rfl)
          (lookup_uncount rfl hslot) rfl rfl
    | some key =>
        have hverified := v.verified_reveal_iff nftId batchId orderBytes signature hkey
        dsimp only
        cases hverify : verify key orderBytes signature with
        | false =>
            rw [Bool.not_false, if_pos rfl]
            rw [hverify] at hverified
            exact .of_refused hfresh rfl (fun h => Bool.false_ne_true (hverified.mp h.2))
              (hforgotten _ rfl rfl) (lookup_uncount rfl hslot) rfl rfl
        | true =>
            rw [Bool.not_true, if_neg Bool.false_ne_true]
            refine .of_fresh hfresh (iff_of_true rfl ⟨hslot, hverified.mpr hverify⟩) ?_ ?_ rfl rfl
            · intro c
              rw [hcontent, and_iff_left (.inl rfl)]
              cases c with
              | commit hash => simp [Seen, v₁]
              | reveal hash => simp [Seen, v₁, or_comm, eq_comm]
            · intro slot
              rw [if_pos rfl]
              exact AList.lookup_insert_ite ..
  · have hfull := UInt32.not_lt.mp hslot
    rw [show v₁.checkRateLimit nftId batchId = _ from checkRateLimit_of_full hfull]
    exact .of_refused hfresh rfl (fun h => hslot h.1) (hforgotten _ rfl rfl)
      (fun slot => AList.lookup_insert_ite ..) rfl rfl

/-- What becomes of a reveal. -/
theorem outcome_acceptReveal :
    v.Outcome (.reveal nftId batchId orderBytes signature)
      (v.acceptReveal nftId batchId orderBytes signature).1
      (v.acceptReveal nftId batchId orderBytes signature).2 := by
  by_cases hfresh : v.Fresh (.reveal nftId batchId orderBytes signature)
  · exact v.outcome_acceptReveal_of_fresh nftId batchId orderBytes signature hfresh
  · unfold acceptReveal
    by_cases hrange : v.isBatchInRange batchId = true
    · rw [if_neg (by rw [hrange]; exact Bool.false_ne_true)]
      have hknown : sha256 orderBytes ∈ v.seenRevealHashes := by
        by_contra hnew
        refine hfresh ⟨hrange, fun c hc => ?_⟩
        obtain rfl := Option.some.inj hc
        exact hnew
      dsimp only
      rw [if_pos hknown]
      exact .of_stale hfresh rfl rfl rfl rfl rfl
    · rw [if_pos (by simpa using hrange)]
      exact .of_stale hfresh rfl rfl rfl rfl rfl

end

/-- **Messages.**  What a message does, given the verdict on it. -/
theorem outcome_accept (v : GossipValidator) (msg : InboundMessage) :
    v.Outcome msg (v.accept msg).1 (v.accept msg).2 := by
  cases msg with
  | commit nftId batchId commitHash => exact v.outcome_acceptCommit nftId batchId commitHash
  | reveal nftId batchId orderBytes signature =>
      exact v.outcome_acceptReveal nftId batchId orderBytes signature

/-- Only an accepted message takes a slot. -/
theorem Outcome.taken (h : v.Outcome msg accepted v') (nftId batchId : UInt64) :
    v'.slots nftId batchId = v.slots nftId batchId +
      if accepted = true ∧ (nftId, batchId) = (msg.nftId, msg.batchId) then 1 else 0 := by
  rw [slots, h.counts]
  by_cases hfresh : v.Fresh msg
  · by_cases heq : (nftId, batchId) = (msg.nftId, msg.batchId)
    · obtain ⟨rfl, rfl⟩ := Prod.mk.inj heq
      rw [if_pos ⟨hfresh, rfl⟩, Option.getD_some]
      simp only [and_true]
    · rw [if_neg fun h => heq h.2, if_neg fun h => heq h.2, UInt32.add_zero, slots]
  · have hrefused : ¬ accepted = true := fun haccepted => hfresh (h.verdict.mp haccepted).1
    rw [if_neg fun h => hfresh h.1, if_neg fun h => hrefused h.1, UInt32.add_zero, slots]

/-! ## Runs -/

end

end GossipValidator

/-- A call of the validator. -/
inductive ValidatorCall where
  | message (msg : InboundMessage)
  | updateBatch (batchId : UInt64)
  | expireOldBatches
  | cachePubkey (nftId : UInt64) (key : VerifyingKey)

namespace GossipValidator

section

variable [Externals]

/-- One call. -/
def perform (v : GossipValidator) : ValidatorCall → GossipValidator
  | .message msg => (v.accept msg).2
  | .updateBatch batchId => v.updateBatch batchId
  | .expireOldBatches => v.expireOldBatches
  | .cachePubkey nftId key => v.cachePubkey nftId key

/-- The validator as calls come in, in any order. -/
def calls : System GossipValidator ValidatorCall where
  step v call := some (v.perform call)

/-- No call fails. -/
theorem run_calls (v : GossipValidator) (cs : List ValidatorCall) :
    calls.run v cs = some (cs.foldl perform v) := by
  induction cs generalizing v with
  | nil => rfl
  | cons call cs ih => exact ih (v.perform call)

end

end GossipValidator
