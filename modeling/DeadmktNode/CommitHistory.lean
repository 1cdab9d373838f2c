/-
# What the validation crate remembers of a batch

The first six checks of a commit read nothing that changes within a batch: a commit is
authentic or it is not.  Every authentic commit is stored as evidence, replays included, and
counts against the quota until it is used up; the first one within quota for a hash holds
that hash.  `Remembers` relates the messages so far to the state of the validator, and every
message preserves it.
-/
import DeadmktNode.GossipValidation

namespace GossipValidation

/-! ## Authentic messages -/

namespace Settings

variable {P R B : Type} [Externals] [PubkeyProvider P] [RegistrationProvider R]
  [BlockedProvider B]

/-- Is this the signature of the NFT, under the key that the provider knows? -/
def signs (s : Settings P R B) (nftId : UInt64) (message signature : Bytes) : Bool :=
  (PubkeyProvider.getPubkey s.pubkeys nftId).any fun key => verify key message signature

/-- A commit that passes the checks before quota and duplicates. -/
def Authentic (s : Settings P R B) (c : Commit) : Prop :=
  c.batchId = s.context.currentBatchId ∧ c.poolId = s.context.myPoolId ∧
    computePoolAssignment c.nftId c.batchId s.context.numPools = c.poolId ∧
    BlockedProvider.isBlocked s.blocked c.nftId = false ∧
    RegistrationProvider.isRegistered s.registration c.nftId = true ∧
    s.signs c.nftId (commitMessage c.batchId c.poolId c.hash.toList) c.signature = true

instance (s : Settings P R B) (c : Commit) : Decidable (s.Authentic c) :=
  inferInstanceAs (Decidable (_ ∧ _))

/-- The checks of a commit before quota and duplicates: the reason for which it is rejected, if
any; `none` is a panic. -/
def checkCommit (s : Settings P R B) (c : Commit) : Option (Option CommitRejectReason) :=
  if c.batchId ≠ s.context.currentBatchId then some (some .wrongBatch)
  else if c.poolId ≠ s.context.myPoolId then some (some .wrongPool)
  else if s.context.numPools = 0 then none
  else if computePoolAssignment c.nftId c.batchId s.context.numPools ≠ c.poolId then
    some (some .badPoolAssignment)
  else if BlockedProvider.isBlocked s.blocked c.nftId then some (some .blockedNft)
  else if !RegistrationProvider.isRegistered s.registration c.nftId then
    some (some .unregisteredNft)
  else
    match PubkeyProvider.getPubkey s.pubkeys c.nftId with
    | none => some (some .invalidSignature)
    | some pubkey =>
        if !verify pubkey (commitMessage c.batchId c.poolId c.hash.toList) c.signature then
          some (some .invalidSignature)
        else some none

/-- A commit is rejected there exactly if it is not authentic. -/
theorem checkCommit_cases {s : Settings P R B} {c : Commit} {reason : Option CommitRejectReason}
    (h : s.checkCommit c = some reason) :
    (s.Authentic c ∧ reason = none) ∨ (¬ s.Authentic c ∧ ∃ r, reason = some r) := by
  -- each check that fails denies one part of `Authentic`
  have hreject : ∀ {r : CommitRejectReason}, ¬ s.Authentic c → some (some r) = some reason →
      (s.Authentic c ∧ reason = none) ∨ (¬ s.Authentic c ∧ ∃ r, reason = some r) := by
    intro r hnot heq
    exact .inr ⟨hnot, r, (Option.some.inj heq).symm⟩
  unfold checkCommit at h
  split_ifs at h with hbatch hpool hzero hassigned hblocked hregistered
  · exact hreject (fun ha => hbatch ha.1) h
  · exact hreject (fun ha => hpool ha.2.1) h
  · exact hreject (fun ha => hassigned ha.2.2.1) h
  · refine hreject (fun ha => ?_) h
    rw [ha.2.2.2.1] at hblocked
    cases hblocked
  · refine hreject (fun ha => ?_) h
    rw [ha.2.2.2.2.1] at hregistered
    cases hregistered
  · cases hkey : PubkeyProvider.getPubkey s.pubkeys c.nftId with
    | none =>
        rw [hkey] at h
        refine hreject (fun ha => ?_) h
        have hsigns := ha.2.2.2.2.2
        rw [Settings.signs, hkey] at hsigns
        cases hsigns
    | some key =>
        rw [hkey] at h
        dsimp only at h
        split_ifs at h with hverify
        · refine hreject (fun ha => ?_) h
          have hsigns := ha.2.2.2.2.2
          rw [Settings.signs, hkey, Option.any_some] at hsigns
          rw [hsigns] at hverify
          cases hverify
        -- what passes all checks has each part
        · left
          refine ⟨⟨not_not.mp hbatch, not_not.mp hpool, not_not.mp hassigned, ?_, ?_, ?_⟩,
            (Option.some.inj h).symm⟩
          · exact eq_false_of_ne_true hblocked
          · simpa using hregistered
          · rw [Settings.signs, hkey, Option.any_some]
            simpa using hverify

/-- A reveal of the batch that is signed by its NFT. -/
def AuthenticReveal (s : Settings P R B) (r : Reveal) : Prop :=
  r.batchId = s.context.currentBatchId ∧
    ((encodeOrder r.order).any fun orderBytes =>
      s.signs r.order.nftId orderBytes r.signature) = true

instance (s : Settings P R B) (r : Reveal) : Decidable (s.AuthenticReveal r) :=
  inferInstanceAs (Decidable (_ ∧ _))

/-- The authentic commits of an NFT among the messages. -/
def commitsOf (s : Settings P R B) (past : List GossipValidator.Input) (nftId : UInt64) :
    List Commit :=
  past.filterMap fun
    | .commit c => if s.Authentic c ∧ c.nftId = nftId then some c else none
    | _ => none

/-- The evidence that commits of an NFT leave. -/
def evidenceOf (s : Settings P R B) (nftId : UInt64) (cs : List Commit) :
    Option CommitViolationEvidence :=
  if cs = [] then none
  else some ⟨nftId, s.context.currentBatchId, s.context.myPoolId, cs.map Commit.hash,
    cs.map Commit.signature⟩

/-- An authentic commit of the NFT for the hash came in when the NFT was within quota. -/
def Claims (s : Settings P R B) (past : List GossipValidator.Input) (hash : Hash32)
    (nftId : UInt64) : Prop :=
  ∃ before c after, past = before ++ .commit c :: after ∧ s.Authentic c ∧ c.hash = hash ∧
    c.nftId = nftId ∧ (s.commitsOf before nftId).length < s.context.commitsPerBatch.toNat

section

variable {s : Settings P R B} {past : List GossipValidator.Input} {c : Commit}

theorem commitsOf_append (past rest : List GossipValidator.Input) (nftId : UInt64) :
    s.commitsOf (past ++ rest) nftId = s.commitsOf past nftId ++ s.commitsOf rest nftId := by
  unfold commitsOf
  rw [List.filterMap_append]

/-- An authentic commit counts for its NFT. -/
theorem commitsOf_snoc_of_authentic (h : s.Authentic c) (nftId : UInt64) :
    s.commitsOf (past ++ [.commit c]) nftId
      = if nftId = c.nftId then s.commitsOf past nftId ++ [c] else s.commitsOf past nftId := by
  rw [commitsOf_append]
  by_cases hn : nftId = c.nftId
  · subst hn
    simp [commitsOf, h]
  · rw [if_neg hn]
    simp [commitsOf, Ne.symm hn]

/-- Nothing else counts. -/
theorem commitsOf_snoc_of_not_authentic {i : GossipValidator.Input}
    (h : ∀ c, i = .commit c → ¬ s.Authentic c) (nftId : UInt64) :
    s.commitsOf (past ++ [i]) nftId = s.commitsOf past nftId := by
  rw [commitsOf_append]
  cases i with
  | commit c => simp [commitsOf, h c rfl]
  | reveal r => simp [commitsOf]
  | batchComplete m => simp [commitsOf]

theorem authentic_of_mem_commitsOf {nftId : UInt64} (h : c ∈ s.commitsOf past nftId) :
    s.Authentic c ∧ c.nftId = nftId := by
  unfold commitsOf at h
  obtain ⟨i, -, hi⟩ := List.mem_filterMap.mp h
  cases i with
  | commit c' =>
      dsimp only at hi
      split_ifs at hi with hc
      obtain rfl := Option.some.inj hi
      exact hc
  | reveal r => cases hi
  | batchComplete m => cases hi

/-- A claim of a longer history is an old one or made by the last message. -/
theorem claims_snoc_iff {i : GossipValidator.Input} {hash : Hash32} {nftId : UInt64} :
    s.Claims (past ++ [i]) hash nftId ↔ s.Claims past hash nftId ∨
      ∃ c, i = .commit c ∧ s.Authentic c ∧ c.hash = hash ∧ c.nftId = nftId ∧
        (s.commitsOf past nftId).length < s.context.commitsPerBatch.toNat := by
  constructor
  · rintro ⟨before, c, after, hsplit, hauth, hhash, hnft, hquota⟩
    rcases System.snoc_eq_append_cons_iff.mp hsplit with ⟨-, rfl, hi⟩ | ⟨rest, -, hpast⟩
    · exact .inr ⟨c, hi, hauth, hhash, hnft, hquota⟩
    · exact .inl ⟨before, c, rest, hpast, hauth, hhash, hnft, hquota⟩
  · rintro (⟨before, c, after, rfl, hrest⟩ | ⟨c, rfl, hauth, hhash, hnft, hquota⟩)
    · exact ⟨before, c, after ++ [i], by rw [List.append_assoc, List.cons_append], hrest⟩
    · exact ⟨past, c, [], rfl, hauth, hhash, hnft, hquota⟩

end

end Settings

/-! ## One commit -/

namespace CommitQuotaTracker

variable (t : CommitQuotaTracker) (nftId batchId poolId : UInt64) (hash : Hash32)
  (signature : Bytes)

/-- The number of counted commits of an NFT. -/
def countOf (t : CommitQuotaTracker) (nftId : UInt64) : UInt64 := (t.counts.lookup nftId).getD 0

theorem checkAndRecord_fst :
    (t.checkAndRecord nftId batchId poolId hash signature).1
      = decide (t.countOf nftId < t.commitsPerBatch) := by
  unfold checkAndRecord countOf
  dsimp only
  split_ifs with hle
  · exact (decide_eq_false (UInt64.not_lt.mpr hle)).symm
  · exact (decide_eq_true (UInt64.not_le.mp hle)).symm

theorem evidence_checkAndRecord :
    (t.checkAndRecord nftId batchId poolId hash signature).2.evidence
      = t.evidence.upsert nftId ⟨nftId, batchId, poolId, [], []⟩ fun e =>
        { e with
          commitHashes := e.commitHashes ++ [hash]
          commitSignatures := e.commitSignatures ++ [signature] } := by
  unfold checkAndRecord
  dsimp only
  split_ifs <;> rfl

theorem commitsPerBatch_checkAndRecord :
    (t.checkAndRecord nftId batchId poolId hash signature).2.commitsPerBatch
      = t.commitsPerBatch := by
  unfold checkAndRecord
  dsimp only
  split_ifs <;> rfl

theorem countOf_checkAndRecord (n : UInt64) :
    (t.checkAndRecord nftId batchId poolId hash signature).2.countOf n
      = if n = nftId ∧ t.countOf nftId < t.commitsPerBatch then t.countOf nftId + 1
        else t.countOf n := by
  unfold checkAndRecord countOf
  dsimp only
  by_cases hn : n = nftId
  · subst hn
    split_ifs with hle hlt hlt
    · exact absurd hlt.2 (UInt64.not_lt.mpr hle)
    · rw [AList.lookup_insert, Option.getD_some]
    · rw [AList.lookup_insert, Option.getD_some]
    · exact absurd ⟨rfl, UInt64.not_le.mp hle⟩ hlt
  · rw [if_neg (fun h : n = nftId ∧ _ => hn h.1)]
    split_ifs
    · dsimp only
      rw [AList.lookup_insert_ne hn]
    · dsimp only
      rw [AList.lookup_insert_ne hn, AList.lookup_insert_ne hn]

end CommitQuotaTracker

/-! ## What one message does -/

namespace GossipValidator

variable {P R B : Type} [Externals] [PubkeyProvider P] [RegistrationProvider R]
  [BlockedProvider B]

section

variable {v : GossipValidator P R B} {c : Commit}

/-- The first checks look at the settings alone. -/
theorem validateCommit_eq (v : GossipValidator P R B) (c : Commit) :
    v.validateCommit c = (v.toSettings.checkCommit c).map fun reason =>
      match reason with
      | some reason => (.rejected reason, v)
      | none => v.recordCommit c := by
  unfold validateCommit Settings.checkCommit
  split_ifs
  · rfl
  · rfl
  · rfl
  · rfl
  · rfl
  · rfl
  · cases PubkeyProvider.getPubkey v.pubkeys c.nftId with
    | none => rfl
    | some pubkey =>
        dsimp only
        split_ifs
        · rfl
        · rfl

/-- An authentic commit goes on to quota and duplicates; any other is rejected and leaves the
validator as it was. -/
theorem validateCommit_cases {r : CommitResult × GossipValidator P R B}
    (h : v.validateCommit c = some r) :
    (v.toSettings.Authentic c ∧ r = v.recordCommit c) ∨
      (¬ v.toSettings.Authentic c ∧ r.2 = v ∧ ∃ reason, r.1 = .rejected reason) := by
  rw [validateCommit_eq] at h
  obtain ⟨reason, hcheck, rfl⟩ := Option.map_eq_some_iff.mp h
  rcases Settings.checkCommit_cases hcheck with ⟨hauth, rfl⟩ | ⟨hnot, r, rfl⟩
  · exact .inl ⟨hauth, rfl⟩
  · exact .inr ⟨hnot, rfl, r, rfl⟩

/-- The quota tracker after an authentic commit. -/
def tracked (v : GossipValidator P R B) (c : Commit) : CommitQuotaTracker :=
  (v.quotaTracker.checkAndRecord c.nftId c.batchId c.poolId c.hash c.signature).2

omit [Externals] [PubkeyProvider P] [RegistrationProvider R] [BlockedProvider B] in
/-- An authentic commit is accepted if its NFT is under quota and nobody holds its hash. -/
theorem recordCommit_eq (v : GossipValidator P R B) (c : Commit) :
    v.recordCommit c
      = if v.quotaTracker.countOf c.nftId < v.quotaTracker.commitsPerBatch then
          if (v.pendingCommits.lookup c.hash).isSome then
            (.rejected .duplicateHash, { v with quotaTracker := v.tracked c })
          else
            (.accepted, { v with
              quotaTracker := v.tracked c
              pendingCommits := v.pendingCommits.insert c.hash
                (CommitRecord.mk c.batchId c.poolId c.hash c.nftId c.signature false) })
        else (.rejected .overQuota, { v with quotaTracker := v.tracked c }) := by
  have hfst := v.quotaTracker.checkAndRecord_fst c.nftId c.batchId c.poolId c.hash c.signature
  unfold recordCommit tracked
  dsimp only
  rw [hfst]
  by_cases hquota : v.quotaTracker.countOf c.nftId < v.quotaTracker.commitsPerBatch
  · rw [if_pos hquota, decide_eq_true hquota]
    rfl
  · rw [if_neg hquota, decide_eq_false hquota]
    rfl

/-- The validator waits for the reveal of the hash by the NFT. -/
def Awaits (v : GossipValidator P R B) (nftId : UInt64) (hash : Hash32) : Prop :=
  (v.pendingCommits.lookup hash).map CommitRecord.nftId = some nftId ∧ hash ∉ v.revealedHashes

/-- The commit of a hash is revealed. -/
def markRevealed (v : GossipValidator P R B) (hash : Hash32) : GossipValidator P R B :=
  { v with
    revealedHashes := insert hash v.revealedHashes
    pendingCommits := v.pendingCommits.modify hash fun commit =>
      { commit with revealed := true } }

omit [RegistrationProvider R] [BlockedProvider B] in
/-- An authentic reveal that is waited for is accepted and marks its commit; any other is not
accepted and leaves the validator as it was. -/
theorem validateReveal_cases {r : Reveal} {a : RevealResult × GossipValidator P R B}
    (h : v.validateReveal r = some a) :
    (v.toSettings.AuthenticReveal r ∧ v.Awaits r.order.nftId (orderHash r.order) ∧
        a = (.accepted, v.markRevealed (orderHash r.order))) ∨
      (¬ (v.toSettings.AuthenticReveal r ∧ v.Awaits r.order.nftId (orderHash r.order)) ∧
        a.1 ≠ .accepted ∧ a.2 = v) := by
  have hrefuse : ∀ {result : RevealResult}, result ≠ .accepted →
      ¬ (v.toSettings.AuthenticReveal r ∧ v.Awaits r.order.nftId (orderHash r.order)) →
      some (result, v) = some a →
      (v.toSettings.AuthenticReveal r ∧ v.Awaits r.order.nftId (orderHash r.order) ∧
          a = (.accepted, v.markRevealed (orderHash r.order))) ∨
        (¬ (v.toSettings.AuthenticReveal r ∧ v.Awaits r.order.nftId (orderHash r.order)) ∧
          a.1 ≠ .accepted ∧ a.2 = v) := by
    intro result hresult hnot heq
    obtain rfl := Option.some.inj heq
    exact .inr ⟨hnot, hresult, rfl⟩
  have hrejected : ∀ reason, RevealResult.rejected reason ≠ .accepted := by
    intro reason heq
    cases heq
  -- the checks in the order of the source: each refusal contradicts authenticity or the wait
  unfold validateReveal at h
  split_ifs at h with hbatch
  · exact hrefuse (hrejected _) (fun hok => hbatch hok.1.1) h
  · cases hbytes : encodeOrder r.order with
    | none =>
        rw [hbytes] at h
        cases h
    | some orderBytes =>
        have hhash : orderHash r.order = sha256 orderBytes := by
          rw [orderHash, hbytes, Option.getD_some]
        rw [hbytes] at h
        dsimp only at h
        rw [← hhash] at h
        cases hpending : v.pendingCommits.lookup (orderHash r.order) with
        | none =>
            rw [hpending] at h
            refine hrefuse (hrejected _) (fun hok => ?_) h
            have hheld := hok.2.1
            rw [hpending] at hheld
            cases hheld
        | some commit =>
            rw [hpending] at h
            dsimp only at h
            -- a commit waits under this hash: revealed already, or that of another NFT?
            split_ifs at h with hrevealed hnft
            · exact hrefuse (by intro heq; cases heq) (fun hok => hok.2.2 hrevealed) h
            · refine hrefuse (hrejected _) (fun hok => ?_) h
              have hheld := hok.2.1
              rw [hpending, Option.map_some] at hheld
              exact hnft (Option.some.inj hheld).symm
            · have hsigns : ∀ b, v.toSettings.signs r.order.nftId orderBytes r.signature = b →
                  (v.toSettings.AuthenticReveal r ↔ b = true) := by
                intro b hb
                rw [Settings.AuthenticReveal, hbytes, Option.any_some, hb]
                exact and_iff_right (not_not.mp hbatch)
              cases hkey : PubkeyProvider.getPubkey v.pubkeys r.order.nftId with
              | none =>
                  rw [hkey] at h
                  refine hrefuse (hrejected _) (fun hok => ?_) h
                  have hauth := (hsigns false (by rw [Settings.signs, hkey]; rfl)).mp hok.1
                  cases hauth
              | some key =>
                  have hkeyed := hsigns (verify key orderBytes r.signature)
                    (by rw [Settings.signs, hkey, Option.any_some])
                  rw [hkey] at h
                  dsimp only at h
                  split_ifs at h with hverify
                  · refine hrefuse (hrejected _) (fun hok => ?_) h
                    rw [hkeyed.mp hok.1] at hverify
                    cases hverify
                  · left
                    refine ⟨hkeyed.mpr (by simpa using hverify), ⟨?_, hrevealed⟩,
                      (Option.some.inj h).symm⟩
                    rw [hpending, Option.map_some, not_not.mp hnft]

omit [RegistrationProvider R] [BlockedProvider B] in
/-- A `BatchComplete` touches neither commits nor evidence. -/
theorem validateBatchComplete_frame {m : BatchComplete}
    {a : BatchCompleteResult × GossipValidator P R B}
    (h : v.validateBatchComplete m = some a) :
    ∃ seen, a.2 = { v with batchCompleteSeen := seen } := by
  unfold validateBatchComplete at h
  split_ifs at h
  · exact ⟨_, congrArg Prod.snd (Option.some.inj h).symm⟩
  · exact ⟨_, congrArg Prod.snd (Option.some.inj h).symm⟩
  · cases hkey : PubkeyProvider.getPubkey v.pubkeys m.senderNftId with
    | none =>
        rw [hkey] at h
        exact ⟨_, congrArg Prod.snd (Option.some.inj h).symm⟩
    | some key =>
        rw [hkey] at h
        obtain ⟨msg, -, rfl⟩ := Option.map_eq_some_iff.mp h
        dsimp only
        split_ifs
        · exact ⟨_, rfl⟩
        · exact ⟨_, rfl⟩
        · exact ⟨_, rfl⟩

end

/-! ## The invariant -/

/-- What the messages so far leave in the validator. -/
structure Remembers (s : Settings P R B) (past : List Input) (v : GossipValidator P R B) :
    Prop where
  settings : v.toSettings = s
  quota : v.quotaTracker.commitsPerBatch = s.context.commitsPerBatch
  evidence : ∀ nftId, v.quotaTracker.evidence.lookup nftId
    = s.evidenceOf nftId (s.commitsOf past nftId)
  counts : ∀ nftId, (v.quotaTracker.countOf nftId).toNat
    = min (s.commitsOf past nftId).length s.context.commitsPerBatch.toNat
  held : ∀ hash commit, v.pendingCommits.lookup hash = some commit →
    s.Claims past hash commit.nftId
  free : ∀ hash, v.pendingCommits.lookup hash = none → ∀ nftId, ¬ s.Claims past hash nftId
  revealed : ∀ hash ∈ v.revealedHashes, (v.pendingCommits.lookup hash).isSome

section

variable {s : Settings P R B} {past : List Input} {v : GossipValidator P R B}

theorem remembers_new (s : Settings P R B) :
    Remembers s [] (new s.pubkeys s.registration s.blocked s.context) where
  settings := rfl
  quota := rfl
  evidence _ := rfl
  counts _ := by simp [new, CommitQuotaTracker.countOf, CommitQuotaTracker.new, Settings.commitsOf]
  held _ _ h := by cases h
  free := by
    rintro hash - nftId ⟨before, c, after, hsplit, -⟩
    cases before <;> cases hsplit
  revealed hash h := absurd h (Finset.notMem_empty hash)

/-- A message that is no authentic commit and leaves the validator as it was. -/
theorem Remembers.skip (h : Remembers s past v) {i : Input}
    (hnot : ∀ c, i = .commit c → ¬ s.Authentic c) : Remembers s (past ++ [i]) v where
  settings := h.settings
  quota := h.quota
  evidence := by
    intro nftId
    rw [Settings.commitsOf_snoc_of_not_authentic hnot]
    exact h.evidence nftId
  counts := by
    intro nftId
    rw [Settings.commitsOf_snoc_of_not_authentic hnot]
    exact h.counts nftId
  held := by
    intro hash commit hcommit
    exact Settings.claims_snoc_iff.mpr (.inl (h.held hash commit hcommit))
  free := by
    intro hash hnone nftId hclaims
    rcases Settings.claims_snoc_iff.mp hclaims with hold | ⟨c, hi, hauth, -⟩
    · exact h.free hash hnone nftId hold
    · exact hnot c hi hauth
  revealed := h.revealed

/-- An NFT is under quota exactly when fewer of its commits were recorded. -/
theorem Remembers.under_quota_iff (h : Remembers s past v) (nftId : UInt64) :
    v.quotaTracker.countOf nftId < v.quotaTracker.commitsPerBatch
      ↔ (s.commitsOf past nftId).length < s.context.commitsPerBatch.toNat := by
  rw [UInt64.lt_iff_toNat_lt, h.counts, h.quota]
  omega

/-- The tracker after an authentic commit. -/
theorem Remembers.tracked (h : Remembers s past v) {c : Commit} (hauth : s.Authentic c) :
    (∀ nftId, (v.tracked c).evidence.lookup nftId
        = s.evidenceOf nftId (s.commitsOf (past ++ [.commit c]) nftId)) ∧
      ∀ nftId, ((v.tracked c).countOf nftId).toNat
        = min (s.commitsOf (past ++ [.commit c]) nftId).length
          s.context.commitsPerBatch.toNat := by
  constructor
  · intro nftId
    rw [GossipValidator.tracked, CommitQuotaTracker.evidence_checkAndRecord,
      Settings.commitsOf_snoc_of_authentic hauth]
    by_cases hn : nftId = c.nftId
    · subst hn
      rw [if_pos rfl, AList.lookup_upsert, h.evidence, hauth.1, hauth.2.1]
      unfold Settings.evidenceOf
      by_cases hnil : s.commitsOf past c.nftId = []
      · simp [hnil]
      · simp [hnil]
    · rw [if_neg hn, AList.lookup_upsert_ne _ _ _ hn]
      exact h.evidence nftId
  · intro nftId
    have hcount := h.counts nftId
    rw [GossipValidator.tracked, CommitQuotaTracker.countOf_checkAndRecord,
      Settings.commitsOf_snoc_of_authentic hauth]
    by_cases hn : nftId = c.nftId
    · subst hn
      have hunder := h.under_quota_iff c.nftId
      rw [if_pos (rfl : c.nftId = c.nftId), List.length_append, List.length_singleton]
      -- at the quota the count stays, while the history goes on
      by_cases hlt : v.quotaTracker.countOf c.nftId < v.quotaTracker.commitsPerBatch
      · have hbound := s.context.commitsPerBatch.toNat_lt
        have hroom := hunder.mp hlt
        rw [if_pos ⟨rfl, hlt⟩, UInt64.toNat_add, hcount, UInt64.toNat_one]
        omega
      · have hfull := mt hunder.mpr hlt
        rw [if_neg (fun hboth : c.nftId = c.nftId ∧ _ => hlt hboth.2), hcount]
        omega
    · rw [if_neg (fun hboth : nftId = c.nftId ∧ _ => hn hboth.1), if_neg hn]
      exact hcount

/-- An authentic commit. -/
theorem Remembers.recordCommit (h : Remembers s past v) {c : Commit} (hauth : s.Authentic c) :
    Remembers s (past ++ [.commit c]) (v.recordCommit c).2 := by
  obtain ⟨hevidence, hcounts⟩ := h.tracked hauth
  have hquota : (v.tracked c).commitsPerBatch = s.context.commitsPerBatch := by
    rw [GossipValidator.tracked, CommitQuotaTracker.commitsPerBatch_checkAndRecord, h.quota]
  have hold : ∀ {hash nftId}, s.Claims past hash nftId →
      s.Claims (past ++ [.commit c]) hash nftId :=
    fun hclaims => Settings.claims_snoc_iff.mpr (.inl hclaims)
  -- a claim that is not new was made before
  have hnew : ∀ {hash nftId}, s.Claims (past ++ [.commit c]) hash nftId →
      s.Claims past hash nftId ∨ c.hash = hash ∧
        (s.commitsOf past c.nftId).length < s.context.commitsPerBatch.toNat := by
    intro hash nftId hclaims
    rcases Settings.claims_snoc_iff.mp hclaims with hbefore | ⟨c', hi, -, hhash, hnft, hlt⟩
    · exact .inl hbefore
    · obtain rfl := Input.commit.inj hi
      subst hnft
      exact .inr ⟨hhash, hlt⟩
  rw [recordCommit_eq]
  -- granted but a duplicate, accepted, over quota
  split_ifs with hlt hpending
  · refine ⟨h.settings, hquota, hevidence, hcounts, fun hash commit hc => hold (h.held _ _ hc), ?_,
      h.revealed⟩
    intro hash hnone nftId hclaims
    rcases hnew hclaims with hbefore | ⟨rfl, -⟩
    · exact h.free hash hnone nftId hbefore
    · rw [show v.pendingCommits.lookup c.hash = none from hnone] at hpending
      cases hpending
  · refine ⟨h.settings, hquota, hevidence, hcounts, ?_, ?_, ?_⟩
    · intro hash commit hcommit
      by_cases hhash : hash = c.hash
      · subst hhash
        obtain rfl := Option.some.inj ((AList.lookup_insert _).symm.trans hcommit)
        exact Settings.claims_snoc_iff.mpr
          (.inr ⟨c, rfl, hauth, rfl, rfl, (h.under_quota_iff c.nftId).mp hlt⟩)
      · exact hold (h.held hash commit ((AList.lookup_insert_ne hhash).symm.trans hcommit))
    · intro hash hnone nftId hclaims
      by_cases hhash : hash = c.hash
      · subst hhash
        cases (AList.lookup_insert _).symm.trans hnone
      · rcases hnew hclaims with hbefore | ⟨rfl, -⟩
        · exact h.free hash ((AList.lookup_insert_ne hhash).symm.trans hnone) nftId hbefore
        · exact hhash rfl
    · intro hash hrevealed
      exact (AList.isSome_lookup_insert _ _ _ _).mpr (.inr (h.revealed hash hrevealed))
  · refine ⟨h.settings, hquota, hevidence, hcounts, fun hash commit hc => hold (h.held _ _ hc), ?_,
      h.revealed⟩
    intro hash hnone nftId hclaims
    rcases hnew hclaims with hbefore | ⟨-, hunder⟩
    · exact h.free hash hnone nftId hbefore
    · exact hlt ((h.under_quota_iff c.nftId).mpr hunder)

/-- A reveal that is accepted. -/
theorem Remembers.markRevealed (h : Remembers s past v) {hash : Hash32}
    (hpending : (v.pendingCommits.lookup hash).isSome) :
    Remembers s past (v.markRevealed hash) := by
  -- the mark changes neither which commits are pending nor whose they are
  have hlookup : ∀ k, ((v.markRevealed hash).pendingCommits.lookup k).map CommitRecord.nftId
      = (v.pendingCommits.lookup k).map CommitRecord.nftId := by
    intro k
    show ((v.pendingCommits.modify hash _).lookup k).map CommitRecord.nftId = _
    by_cases hk : k = hash
    · subst hk
      rw [AList.lookup_modify, Option.map_map]
      rfl
    · rw [AList.lookup_modify_ne _ _ hk]
  have hsome : ∀ k, ((v.markRevealed hash).pendingCommits.lookup k).isSome
      = (v.pendingCommits.lookup k).isSome := by
    intro k
    have := congrArg Option.isSome (hlookup k)
    rwa [Option.isSome_map, Option.isSome_map] at this
  refine ⟨h.settings, h.quota, h.evidence, h.counts, ?_, ?_, ?_⟩
  · intro k commit hcommit
    have hk := hlookup k
    rw [hcommit, Option.map_some] at hk
    obtain ⟨commit', hcommit', heq⟩ := Option.map_eq_some_iff.mp hk.symm
    rw [← heq]
    exact h.held k commit' hcommit'
  · intro k hnone
    refine h.free k (Option.not_isSome_iff_eq_none.mp ?_)
    rw [← hsome, hnone]
    exact Bool.false_ne_true
  · intro k hk
    rw [hsome]
    rcases Finset.mem_insert.mp hk with rfl | hk
    · exact hpending
    · exact h.revealed k hk

/-- **Step.**  Every message preserves the invariant. -/
theorem Remembers.step (h : Remembers s past v) {i : Input} {v' : GossipValidator P R B}
    (hstep : v.step i = some v') : Remembers s (past ++ [i]) v' := by
  cases i with
  | commit c =>
      obtain ⟨r, hr, rfl⟩ := Option.map_eq_some_iff.mp hstep
      rcases validateCommit_cases hr with ⟨hauth, rfl⟩ | ⟨hnot, hsame, -⟩
      · exact h.recordCommit (h.settings ▸ hauth)
      · rw [hsame]
        refine h.skip fun c' hc' => ?_
        obtain rfl := Input.commit.inj hc'
        rwa [← h.settings]
  | reveal r =>
      obtain ⟨a, ha, rfl⟩ := Option.map_eq_some_iff.mp hstep
      have hskip : ∀ c, Input.reveal r = .commit c → ¬ s.Authentic c := by
        intro c hc
        cases hc
      rcases validateReveal_cases ha with ⟨-, hawaits, rfl⟩ | ⟨-, -, hsame⟩
      · refine (h.markRevealed ?_).skip hskip
        have := congrArg Option.isSome hawaits.1
        rwa [Option.isSome_map] at this
      · rw [hsame]
        exact h.skip hskip
  | batchComplete m =>
      obtain ⟨a, ha, rfl⟩ := Option.map_eq_some_iff.mp hstep
      obtain ⟨seen, hseen⟩ := validateBatchComplete_frame ha
      rw [hseen]
      have hsame : Remembers s past { v with batchCompleteSeen := seen } :=
        ⟨h.settings, h.quota, h.evidence, h.counts, h.held, h.free, h.revealed⟩
      refine hsame.skip fun c hc => ?_
      cases hc

/-- **Run.**  The invariant holds in every state of a batch. -/
theorem remembers_of_run (s : Settings P R B) {is : List Input} {v : GossipValidator P R B}
    (hrun : system.run (new s.pubkeys s.registration s.blocked s.context) is = some v) :
    Remembers s is v := by
  have h := system.run_history (I := Remembers s) (fun past _ _ _ hp hstep => hp.step hstep)
    (remembers_new s) hrun
  rwa [List.nil_append] at h

end

end GossipValidator

end GossipValidation
