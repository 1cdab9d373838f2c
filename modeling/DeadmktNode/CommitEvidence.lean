/-
# Is the violation evidence sound?

Evidence against an NFT lists its authentic commits, in the order in which they came in and
with every replay, and it is reported by its length.  So a report proves a violation exactly
when the NFTs whose commits came in more often than the quota allows also committed to more
different hashes than it allows: anyone who replays one commit often enough makes its author
look guilty.
-/
import DeadmktNode.CommitHistory
import DeadmktNode.LiveNode

/-! ## Picking one element for each value -/

/-- A list has a sublist with one element for each value of `f`. -/
theorem exists_sublist_nodup_map {α β : Type*} [DecidableEq β] (f : α → β) (l : List α) :
    ∃ l' : List α, l'.Sublist l ∧ (l'.map f).Nodup ∧ l'.length = (l.map f).dedup.length := by
  induction l with
  | nil => exact ⟨[], List.Sublist.refl _, List.nodup_nil, rfl⟩
  | cons a l ih =>
      obtain ⟨l', hsub, hnodup, hlength⟩ := ih
      by_cases ha : f a ∈ l.map f
      · refine ⟨l', hsub.cons a, hnodup, ?_⟩
        rw [List.map_cons, List.dedup_cons_of_mem ha, hlength]
      · refine ⟨a :: l', hsub.cons_cons a, ?_, ?_⟩
        · rw [List.map_cons, List.nodup_cons]
          exact ⟨fun hmem => ha ((hsub.map f).subset hmem), hnodup⟩
        · rw [List.map_cons, List.dedup_cons_of_notMem ha, List.length_cons, List.length_cons,
            hlength]

namespace GossipValidation

section

variable {P R B : Type} [Externals] [PubkeyProvider P] [RegistrationProvider R]
  [BlockedProvider B]

/-! ## What evidence proves -/

/-- The evidence holds more different commit hashes than the quota allows, each signed by the
accused NFT for this batch and pool. -/
structure Settings.ProvesOverQuota (s : Settings P R B) (e : CommitViolationEvidence) : Prop where
  batch : e.batchId = s.context.currentBatchId
  pool : e.poolId = s.context.myPoolId
  hashes : ∃ chosen : List (Hash32 × Bytes),
    chosen.Sublist (e.commitHashes.zip e.commitSignatures) ∧ (chosen.map Prod.fst).Nodup ∧
      s.context.commitsPerBatch.toNat < chosen.length ∧
      ∀ p ∈ chosen, s.signs e.accusedNftId
        (commitMessage s.context.currentBatchId s.context.myPoolId p.1.toList) p.2 = true

namespace GossipValidator

variable {s : Settings P R B}

omit [RegistrationProvider R] [BlockedProvider B] in
/-- Evidence that proves a violation has more different hashes than the quota. -/
theorem lt_dedup_of_proves {e : CommitViolationEvidence} (h : s.ProvesOverQuota e) :
    s.context.commitsPerBatch.toNat < e.commitHashes.dedup.length := by
  obtain ⟨chosen, hsub, hnodup, hlong, -⟩ := h.hashes
  have hsubset : chosen.map Prod.fst ⊆ e.commitHashes.dedup := by
    intro hash hmem
    obtain ⟨p, hp, rfl⟩ := List.mem_map.mp hmem
    exact List.mem_dedup.mpr (List.of_mem_zip (hsub.subset hp)).1
  have hle := (hnodup.subperm hsubset).length_le
  rw [List.length_map] at hle
  exact hlong.trans_le hle

/-- The evidence of commits with enough different hashes proves a violation. -/
theorem proves_of_lt_dedup {past : List Input} {nftId : UInt64} {e : CommitViolationEvidence}
    (he : s.evidenceOf nftId (s.commitsOf past nftId) = some e)
    (hlong : s.context.commitsPerBatch.toNat
      < ((s.commitsOf past nftId).map Commit.hash).dedup.length) : s.ProvesOverQuota e := by
  unfold Settings.evidenceOf at he
  split_ifs at he
  obtain rfl := Option.some.inj he
  obtain ⟨cs, hsub, hnodup, hlength⟩ :=
    exists_sublist_nodup_map Commit.hash (s.commitsOf past nftId)
  refine ⟨rfl, rfl, cs.map fun c => (c.hash, c.signature), ?_, ?_, ?_, ?_⟩
  · rw [List.zip_map']
    exact hsub.map _
  · rw [List.map_map]
    exact hnodup
  · rw [List.length_map, hlength]
    exact hlong
  · intro p hp
    obtain ⟨c, hc, rfl⟩ := List.mem_map.mp hp
    obtain ⟨hauth, hnft⟩ := Settings.authentic_of_mem_commitsOf (hsub.subset hc)
    have hsigns := hauth.2.2.2.2.2
    rw [hauth.1, hauth.2.1, hnft] at hsigns
    exact hsigns

/-- Evidence is reported for the NFTs of which more commits came in than the quota. -/
theorem mem_getReportableEvidence {past : List Input} {v : GossipValidator P R B}
    (h : Remembers s past v) {e : CommitViolationEvidence} :
    e ∈ v.quotaTracker.getReportableEvidence ↔ ∃ nftId,
      s.evidenceOf nftId (s.commitsOf past nftId) = some e ∧
        s.context.commitsPerBatch.toNat < (s.commitsOf past nftId).length := by
  unfold CommitQuotaTracker.getReportableEvidence
  rw [List.mem_filter, decide_eq_true_eq, h.quota, AList.mem_values]
  have hlength : ∀ nftId, s.evidenceOf nftId (s.commitsOf past nftId) = some e →
      e.commitHashes.length = (s.commitsOf past nftId).length := by
    intro nftId he
    unfold Settings.evidenceOf at he
    split_ifs at he
    obtain rfl := Option.some.inj he
    exact List.length_map _
  constructor
  · rintro ⟨⟨nftId, he⟩, hlong⟩
    rw [h.evidence] at he
    exact ⟨nftId, he, hlength nftId he ▸ hlong⟩
  · rintro ⟨nftId, he, hlong⟩
    exact ⟨⟨nftId, (h.evidence nftId).trans he⟩, (hlength nftId he).symm ▸ hlong⟩

/-- After any messages of a batch, all reported evidence proves a violation if and only if
every NFT of which more authentic commits came in than the quota, replays counted, committed
to more different hashes than the quota. -/
theorem evidence_sound_iff {is : List Input} {v : GossipValidator P R B}
    (hrun : system.run (new s.pubkeys s.registration s.blocked s.context) is = some v) :
    (∀ e ∈ v.quotaTracker.getReportableEvidence, s.ProvesOverQuota e) ↔
      ∀ nftId, s.context.commitsPerBatch.toNat < (s.commitsOf is nftId).length →
        s.context.commitsPerBatch.toNat
          < ((s.commitsOf is nftId).map Commit.hash).dedup.length := by
  have hremembers := remembers_of_run s hrun
  constructor
  · intro h nftId hlong
    have hne : s.commitsOf is nftId ≠ [] := by
      intro hnil
      rw [hnil] at hlong
      exact Nat.not_lt_zero _ hlong
    have hsome : s.evidenceOf nftId (s.commitsOf is nftId)
        = some ⟨nftId, s.context.currentBatchId, s.context.myPoolId,
          (s.commitsOf is nftId).map Commit.hash,
          (s.commitsOf is nftId).map Commit.signature⟩ := if_neg hne
    exact lt_dedup_of_proves
      (h _ ((mem_getReportableEvidence hremembers).mpr ⟨nftId, hsome, hlong⟩))
  · intro h e he
    obtain ⟨nftId, hsome, hlong⟩ := (mem_getReportableEvidence hremembers).mp he
    exact proves_of_lt_dedup hsome (h nftId hlong)

end GossipValidator

end

/-! ## A replayed commit

NFT 1 and NFT 2 are alone in the pool, and both are registered. -/

section

instance : PubkeyProvider (UInt64 → Option VerifyingKey) := ⟨fun keys => keys⟩

instance : RegistrationProvider (UInt64 → Bool) := ⟨fun registered => registered⟩

instance : BlockedProvider (UInt64 → Bool) := ⟨fun blocked => blocked⟩

/-- The hash of the sample buy. -/
def buyHash : Hash32 := Sha256.digest (sampleBytes sampleBuy)

/-- NFT 2 commits to its buy. -/
def buyCommit : Commit where
  batchId := 7
  poolId := 0
  hash := buyHash
  nftId := 2
  signature :=
    [161, 244, 40, 78, 201, 125, 199, 39, 95, 223, 56, 168, 172, 17, 197, 196, 56, 84, 82, 94, 76,
      147, 71, 125, 255, 215, 116, 199, 117, 52, 131, 230, 114, 219, 198, 246, 171, 209, 121, 178,
      187, 219, 32, 178, 197, 167, 21, 151, 112, 124, 67, 236, 41, 238, 145, 231, 25, 194, 226,
      137, 85, 137, 198, 2]

/-- NFT 2 commits to another hash. -/
def otherCommit : Commit where
  batchId := 7
  poolId := 0
  hash := Vector.replicate 32 9
  nftId := 2
  signature :=
    [226, 106, 20, 21, 205, 224, 246, 197, 34, 229, 122, 2, 129, 25, 227, 101, 244, 20, 148, 173,
      238, 162, 72, 218, 70, 135, 93, 228, 36, 54, 228, 31, 220, 113, 3, 41, 107, 189, 145, 26,
      117, 131, 86, 79, 40, 12, 198, 123, 140, 122, 213, 115, 28, 191, 197, 132, 108, 119, 115,
      112, 132, 6, 234, 3]

/-- NFT 1 commits to the hash of NFT 2's buy. -/
def copiedCommit : Commit where
  batchId := 7
  poolId := 0
  hash := buyHash
  nftId := 1
  signature :=
    [41, 148, 131, 37, 95, 102, 39, 42, 100, 159, 97, 239, 188, 132, 125, 0, 9, 95, 22, 117, 9,
      19, 244, 94, 200, 153, 20, 137, 124, 227, 234, 9, 241, 57, 64, 124, 195, 45, 147, 196, 119,
      179, 221, 221, 204, 3, 171, 178, 225, 31, 233, 114, 203, 99, 147, 193, 20, 65, 20, 215, 33,
      247, 84, 2]

/-- A commit with its signature, for the reference implementation. -/
def Commit.signed (secret : SigningKey) (key : VerifyingKey) (c : Commit) : SignedMessage :=
  ⟨secret, key, commitMessage c.batchId c.poolId c.hash.toList, c.signature⟩

/-- The reference implementation that knows the sample orders and these commits. -/
@[reducible] def commitExternals : Externals :=
  referenceExternals (sampleSignatures ++
    [buyCommit.signed (Vector.replicate 32 2) buyerKey,
      otherCommit.signed (Vector.replicate 32 2) buyerKey,
      copiedCommit.signed (Vector.replicate 32 1) sellerKey])

/-- Batch 7 with one pool, two registered NFTs and a quota. -/
def sampleSettings (commitsPerBatch : UInt64) :
    Settings (UInt64 → Option VerifyingKey) (UInt64 → Bool) (UInt64 → Bool) where
  pubkeys nftId := if nftId = 1 then some sellerKey else if nftId = 2 then some buyerKey else none
  registration nftId := nftId = 1 || nftId = 2
  blocked _ := false
  context := ⟨7, 0, 1, commitsPerBatch⟩

/-- The validator at the start of the batch. -/
def sampleValidator (commitsPerBatch : UInt64) :
    GossipValidator (UInt64 → Option VerifyingKey) (UInt64 → Bool) (UInt64 → Bool) :=
  let s := sampleSettings commitsPerBatch
  .new s.pubkeys s.registration s.blocked s.context

end

namespace GossipValidator

section

attribute [local instance] commitExternals

/-- With a quota of one, two different commits of NFT 2 get it reported, with a proof. -/
theorem two_commits_prove_violation :
    (((system.run (sampleValidator 1) [.commit buyCommit, .commit otherCommit]).getD
        (sampleValidator 1)).quotaTracker.getReportableEvidence.map
          CommitViolationEvidence.accusedNftId) = [2] ∧
      ∀ e ∈ ((system.run (sampleValidator 1) [.commit buyCommit, .commit otherCommit]).getD
        (sampleValidator 1)).quotaTracker.getReportableEvidence,
      (sampleSettings 1).ProvesOverQuota e := by
  refine ⟨by decide +kernel, ?_⟩
  have hcommits : ∀ nftId, (sampleSettings 1).commitsOf [.commit buyCommit, .commit otherCommit]
      nftId = if nftId = 2 then [buyCommit, otherCommit] else [] := by
    have hbuy : (sampleSettings 1).Authentic buyCommit := by decide +kernel
    have hother : (sampleSettings 1).Authentic otherCommit := by decide +kernel
    intro nftId
    show (sampleSettings 1).commitsOf ([] ++ [.commit buyCommit] ++ [.commit otherCommit]) nftId = _
    rw [Settings.commitsOf_snoc_of_authentic hother, Settings.commitsOf_snoc_of_authentic hbuy,
      show otherCommit.nftId = 2 from rfl, show buyCommit.nftId = 2 from rfl]
    split_ifs <;> rfl
  refine (evidence_sound_iff (s := sampleSettings 1)
    (System.run_eq_some_getD _ (by decide +kernel))).mpr fun nftId hlong => ?_
  rw [hcommits] at hlong ⊢
  split_ifs at hlong ⊢
  · decide +kernel
  · exact absurd hlong (Nat.not_lt_zero _)

/-- With a quota of three, one commit of NFT 2 that comes in four times gets it reported. -/
theorem replayed_commit_accuses :
    ¬ ∀ (s : Settings (UInt64 → Option VerifyingKey) (UInt64 → Bool) (UInt64 → Bool))
      (cs : List Commit) (v : GossipValidator _ _ _),
      system.run (new s.pubkeys s.registration s.blocked s.context) (cs.map .commit) = some v →
      ∀ e ∈ v.quotaTracker.getReportableEvidence, s.ProvesOverQuota e := by
  intro h
  have hsound := h (sampleSettings 3) (List.replicate 4 buyCommit) _
    (System.run_eq_some_getD _ (d := sampleValidator 3) (by decide +kernel))
  have hreported : (((system.run (sampleValidator 3)
      ((List.replicate 4 buyCommit).map .commit)).getD
        (sampleValidator 3)).quotaTracker.getReportableEvidence.any
          fun e => decide (e.commitHashes.dedup.length ≤ 3)) = true := by
    decide +kernel
  obtain ⟨e, he, hfew⟩ := List.any_eq_true.mp hreported
  have hmany := lt_dedup_of_proves (hsound e he)
  have hquota : (sampleSettings 3).context.commitsPerBatch.toNat = 3 := rfl
  have hle := of_decide_eq_true hfew
  omega

end

end GossipValidator

end GossipValidation
