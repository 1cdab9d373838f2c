/-
# The gossip validation crate

The validator that checks commits, reveals and `BatchComplete` messages of one batch against
pool assignment, registration, blocking, signatures, quotas and duplicates, and collects
evidence against NFTs that commit too often.  It knows keys, registrations and blocked NFTs
through providers.  `none` is a panic: a remainder by zero pools, or a value that has no
encoding.
-/
import DeadmktNode.BatchClock
import DeadmktNode.HashMap
import DeadmktNode.Runs
import Mathlib.Data.Finset.Basic

namespace GossipValidation

/-! ## Providers -/

/-- Resolves the Ed25519 key of an NFT. -/
class PubkeyProvider (P : Type) where
  getPubkey : P → UInt64 → Option VerifyingKey

/-- Is an NFT registered as a trader? -/
class RegistrationProvider (R : Type) where
  isRegistered : R → UInt64 → Bool

/-- Is an NFT blocked? -/
class BlockedProvider (B : Type) where
  isBlocked : B → UInt64 → Bool

/-! ## Results -/

/-- Where a node stands: its batch, its pool and the limits of the batch. -/
structure ValidationContext where
  currentBatchId : UInt64
  myPoolId : UInt64
  numPools : UInt64
  commitsPerBatch : UInt64
deriving DecidableEq

/-- Why a commit is refused. -/
inductive CommitRejectReason where
  | wrongBatch
  | wrongPool
  | badPoolAssignment
  | blockedNft
  | unregisteredNft
  | invalidSignature
  | duplicateHash
  | overQuota
deriving DecidableEq, Repr

/-- What becomes of a commit. -/
inductive CommitResult where
  | accepted
  | rejected (reason : CommitRejectReason)
deriving DecidableEq, Repr

/-- Why a reveal is refused. -/
inductive RevealRejectReason where
  | wrongBatch
  | noMatchingCommit
  | nftIdMismatch
  | invalidSignature
deriving DecidableEq, Repr

/-- What becomes of a reveal; one that is known already is ignored. -/
inductive RevealResult where
  | accepted
  | rejected (reason : RevealRejectReason)
  | duplicateIgnored
deriving DecidableEq, Repr

/-- Why the summary of a batch is refused. -/
inductive BatchCompleteRejectReason where
  | wrongBatch
  | badPoolAssignment
  | invalidSignature
  | duplicateSender
deriving DecidableEq, Repr

/-- What becomes of the summary of a batch. -/
inductive BatchCompleteResult where
  | accepted
  | rejected (reason : BatchCompleteRejectReason)
deriving DecidableEq, Repr

/-! ## Messages -/

/-- The arguments of a commit. -/
structure Commit where
  batchId : UInt64
  poolId : UInt64
  hash : Hash32
  nftId : UInt64
  signature : Bytes
deriving DecidableEq

/-- The arguments of a reveal. -/
structure Reveal where
  batchId : UInt64
  poolId : UInt64
  order : Order
  signature : Bytes
deriving DecidableEq

/-- The arguments of a `BatchComplete`. -/
structure BatchComplete where
  batchId : UInt64
  poolId : UInt64
  symbol : Bytes
  avgSettlementPrice : UInt64
  volume : UInt64
  matchCount : UInt64
  senderNftId : UInt64
  signature : Bytes
deriving DecidableEq

/-! ## Quotas -/

/-- The commits of one NFT, for a report that there are too many. -/
structure CommitViolationEvidence where
  accusedNftId : UInt64
  batchId : UInt64
  poolId : UInt64
  commitHashes : List Hash32
  commitSignatures : List Bytes
deriving DecidableEq

/-- A commit that waits for its reveal. -/
structure CommitRecord where
  batchId : UInt64
  poolId : UInt64
  hash : Hash32
  nftId : UInt64
  signature : Bytes
  revealed : Bool
deriving DecidableEq

/-- The commits that were counted for each NFT, and the evidence of all that came. -/
structure CommitQuotaTracker where
  counts : HashMap UInt64 UInt64
  evidence : HashMap UInt64 CommitViolationEvidence
  commitsPerBatch : UInt64

namespace CommitQuotaTracker

def new (commitsPerBatch : UInt64) : CommitQuotaTracker := ⟨∅, ∅, commitsPerBatch⟩

/-- Store a commit as evidence, then count it unless the quota is used up. -/
def checkAndRecord (t : CommitQuotaTracker) (nftId batchId poolId : UInt64) (hash : Hash32)
    (signature : Bytes) : Bool × CommitQuotaTracker :=
  let count := (t.counts.lookup nftId).getD 0
  let t := { t with
    counts := t.counts.insert nftId count
    evidence := t.evidence.upsert nftId ⟨nftId, batchId, poolId, [], []⟩ fun e =>
      { e with
        commitHashes := e.commitHashes ++ [hash]
        commitSignatures := e.commitSignatures ++ [signature] } }
  if t.commitsPerBatch ≤ count then (false, t)
  else (true, { t with counts := t.counts.insert nftId (count + 1) })

/-- The evidence against NFTs with more commits than the quota. -/
def getReportableEvidence (t : CommitQuotaTracker) : List CommitViolationEvidence :=
  t.evidence.values.filter fun e => t.commitsPerBatch.toNat < e.commitHashes.length

/-- Forget counts and evidence at the end of a batch. -/
def reset (t : CommitQuotaTracker) : CommitQuotaTracker :=
  { t with counts := ∅, evidence := ∅ }

end CommitQuotaTracker

/-! ## The validator -/

/-- What does not change within a batch. -/
structure Settings (P R B : Type) where
  pubkeys : P
  registration : R
  blocked : B
  context : ValidationContext

/-- The validator: its settings and what it has seen of the batch. -/
structure GossipValidator (P R B : Type) extends Settings P R B where
  pendingCommits : HashMap Hash32 CommitRecord
  quotaTracker : CommitQuotaTracker
  revealedHashes : Finset Hash32
  batchCompleteSeen : Finset (UInt64 × Bytes)

namespace GossipValidator

variable {P R B : Type}

def new (pubkeys : P) (registration : R) (blocked : B) (context : ValidationContext) :
    GossipValidator P R B where
  pubkeys := pubkeys
  registration := registration
  blocked := blocked
  context := context
  pendingCommits := ∅
  quotaTracker := .new context.commitsPerBatch
  revealedHashes := ∅
  batchCompleteSeen := ∅

/-- Forget the batch.  The quota stays that of the first batch. -/
def resetForNewBatch (v : GossipValidator P R B) (newContext : ValidationContext) :
    GossipValidator P R B :=
  { v with
    context := newContext
    pendingCommits := ∅
    quotaTracker := v.quotaTracker.reset
    revealedHashes := ∅
    batchCompleteSeen := ∅ }

section

variable [Externals] [PubkeyProvider P] [RegistrationProvider R] [BlockedProvider B]

/-- The last two checks of a commit: quota, then duplicate hash. -/
def recordCommit (v : GossipValidator P R B) (c : Commit) :
    CommitResult × GossipValidator P R B :=
  let (granted, tracker) :=
    v.quotaTracker.checkAndRecord c.nftId c.batchId c.poolId c.hash c.signature
  let v := { v with quotaTracker := tracker }
  if !granted then (.rejected .overQuota, v)
  else if (v.pendingCommits.lookup c.hash).isSome then (.rejected .duplicateHash, v)
  else
    let commit := ⟨c.batchId, c.poolId, c.hash, c.nftId, c.signature, false⟩
    (.accepted, { v with pendingCommits := v.pendingCommits.insert c.hash commit })

/-- Validate a commit; an accepted one waits for its reveal. -/
def validateCommit (v : GossipValidator P R B) (c : Commit) :
    Option (CommitResult × GossipValidator P R B) :=
  if c.batchId ≠ v.context.currentBatchId then some (.rejected .wrongBatch, v)
  else if c.poolId ≠ v.context.myPoolId then some (.rejected .wrongPool, v)
  else if v.context.numPools = 0 then none
  else if computePoolAssignment c.nftId c.batchId v.context.numPools ≠ c.poolId then
    some (.rejected .badPoolAssignment, v)
  else if BlockedProvider.isBlocked v.blocked c.nftId then some (.rejected .blockedNft, v)
  else if !RegistrationProvider.isRegistered v.registration c.nftId then
    some (.rejected .unregisteredNft, v)
  else
    match PubkeyProvider.getPubkey v.pubkeys c.nftId with
    | none => some (.rejected .invalidSignature, v)
    | some pubkey =>
        if !verify pubkey (commitMessage c.batchId c.poolId c.hash.toList) c.signature then
          some (.rejected .invalidSignature, v)
        else some (v.recordCommit c)

/-- Validate a reveal; an accepted one marks its commit. -/
def validateReveal (v : GossipValidator P R B) (r : Reveal) :
    Option (RevealResult × GossipValidator P R B) :=
  if r.batchId ≠ v.context.currentBatchId then some (.rejected .wrongBatch, v)
  else
    match encodeOrder r.order with
    | none => none
    | some orderBytes =>
        let revealHash := sha256 orderBytes
        match v.pendingCommits.lookup revealHash with
        | none => some (.rejected .noMatchingCommit, v)
        | some commit =>
            if revealHash ∈ v.revealedHashes then some (.duplicateIgnored, v)
            else if r.order.nftId ≠ commit.nftId then some (.rejected .nftIdMismatch, v)
            else
              match PubkeyProvider.getPubkey v.pubkeys r.order.nftId with
              | none => some (.rejected .invalidSignature, v)
              | some pubkey =>
                  if !verify pubkey orderBytes r.signature then
                    some (.rejected .invalidSignature, v)
                  else some (.accepted, { v with
                    revealedHashes := insert revealHash v.revealedHashes
                    pendingCommits := v.pendingCommits.modify revealHash fun commit =>
                      { commit with revealed := true } })

/-- Validate a `BatchComplete`; a sender has one for each symbol. -/
def validateBatchComplete (v : GossipValidator P R B) (m : BatchComplete) :
    Option (BatchCompleteResult × GossipValidator P R B) :=
  if m.batchId ≠ v.context.currentBatchId then some (.rejected .wrongBatch, v)
  else if v.context.numPools = 0 then none
  else if computePoolAssignment m.senderNftId m.batchId v.context.numPools ≠ m.poolId then
    some (.rejected .badPoolAssignment, v)
  else
    match PubkeyProvider.getPubkey v.pubkeys m.senderNftId with
    | none => some (.rejected .invalidSignature, v)
    | some pubkey =>
        (batchCompleteMessage m.batchId m.poolId m.symbol m.avgSettlementPrice m.volume
          m.matchCount).map fun msg =>
            let key := (m.senderNftId, m.symbol)
            if !verify pubkey msg m.signature then (.rejected .invalidSignature, v)
            else if key ∈ v.batchCompleteSeen then (.rejected .duplicateSender, v)
            else (.accepted, { v with batchCompleteSeen := insert key v.batchCompleteSeen })

/-! ### One batch -/

/-- The messages of a batch. -/
inductive Input where
  | commit (c : Commit)
  | reveal (r : Reveal)
  | batchComplete (m : BatchComplete)
deriving DecidableEq

def step (v : GossipValidator P R B) : Input → Option (GossipValidator P R B)
  | .commit c => (v.validateCommit c).map Prod.snd
  | .reveal r => (v.validateReveal r).map Prod.snd
  | .batchComplete m => (v.validateBatchComplete m).map Prod.snd

/-- The calls of the validator as a system. -/
def system : System (GossipValidator P R B) Input := ⟨step⟩

@[simp] theorem system_step : (system (P := P) (R := R) (B := B)).step = step := rfl

end

end GossipValidator

end GossipValidation
