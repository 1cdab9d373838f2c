/-
# The live gossip validator

What the run loop checks of an inbound message before it stores it: the batch window,
deduplication by content hash, a message count for every NFT and batch, and the
signature of a reveal under the NFT's cached key.
-/
import DeadmktNode.Gossip
import Mathlib.Data.Finset.Basic

/-! ## State -/

/-- Batches accepted on either side of the current one. -/
def batchWindow : UInt64 := 5

/-- How often, in batches, unknown keys are fetched. -/
def pubkeyFetchInterval : UInt64 := 3

/-- Messages accepted for one NFT and batch. -/
def maxMsgsPerNftPerBatch : UInt32 := 10

/-- What the chain answers for the key of an NFT. -/
inductive KeyAnswer where
  | found (key : VerifyingKey)
  /-- no valid key of 32 bytes -/
  | unusable
  | failed

structure GossipValidator where
  nftPubkeys : HashMap UInt64 VerifyingKey
  seenCommitHashes : Finset Hash32
  seenRevealHashes : Finset Hash32
  msgCounts : HashMap (UInt64 × UInt64) UInt32
  unknownNfts : Finset UInt64
  currentBatchId : UInt64
  lastPubkeyFetchBatch : UInt64
  rejectedBounds : UInt64
  rejectedDedup : UInt64
  rejectedRate : UInt64
  rejectedSig : UInt64
  rejectedUnknown : UInt64
  accepted : UInt64

namespace GossipValidator

/-- The validator at start-up. -/
def new (initialBatchId : UInt64) : GossipValidator where
  nftPubkeys := ∅
  seenCommitHashes := ∅
  seenRevealHashes := ∅
  msgCounts := ∅
  unknownNfts := ∅
  currentBatchId := initialBatchId
  lastPubkeyFetchBatch := 0
  rejectedBounds := 0
  rejectedDedup := 0
  rejectedRate := 0
  rejectedSig := 0
  rejectedUnknown := 0
  accepted := 0

/-! ## Checks -/

/-- Is the batch in the window around the current one?  Before the first batch is
known, every batch is. -/
def isBatchInRange (v : GossipValidator) (batchId : UInt64) : Bool :=
  if v.currentBatchId = 0 then true
  else
    let lower := v.currentBatchId.saturatingSub batchWindow
    let upper := v.currentBatchId.saturatingAdd batchWindow
    lower ≤ batchId && batchId ≤ upper

/-- Count a message of an NFT in a batch, unless the limit is reached. -/
def checkRateLimit (v : GossipValidator) (nftId batchId : UInt64) : Bool × GossipValidator :=
  let count := (v.msgCounts.lookup (nftId, batchId)).getD 0
  if maxMsgsPerNftPerBatch ≤ count then
    (false, { v with
      msgCounts := v.msgCounts.insert (nftId, batchId) count
      rejectedRate := v.rejectedRate + 1 })
  else
    (true, { v with msgCounts := v.msgCounts.insert (nftId, batchId) (count + 1) })

/-- Take back a counted message (`saturating_sub(1)` on the entry, if there is one). -/
def uncount (v : GossipValidator) (nftId batchId : UInt64) : GossipValidator :=
  { v with
    msgCounts := v.msgCounts.modify (nftId, batchId) (fun c => if 1 ≤ c then c - 1 else 0) }

/-- Validate an inbound commit: window, content hash, rate limit. -/
def acceptCommit (v : GossipValidator) (nftId batchId : UInt64) (commitHash : Bytes) :
    Bool × GossipValidator :=
  if !v.isBatchInRange batchId then
    (false, { v with rejectedBounds := v.rejectedBounds + 1 })
  else
    let counted (v : GossipValidator) : Bool × GossipValidator :=
      match v.checkRateLimit nftId batchId with
      | (false, v) => (false, v)
      | (true, v) => (true, { v with accepted := v.accepted + 1 })
    if commitHash.length = 32 then
      let hash := Sha256.toHash32 commitHash
      if hash ∈ v.seenCommitHashes then
        (false, { v with rejectedDedup := v.rejectedDedup + 1 })
      else counted { v with seenCommitHashes := insert hash v.seenCommitHashes }
    else counted v

/-- Validate an inbound reveal: window, content hash, rate limit, signature.  A
rejection after the second check takes the content hash back. -/
def acceptReveal [Externals] (v : GossipValidator) (nftId batchId : UInt64)
    (orderBytes signature : Bytes) : Bool × GossipValidator :=
  if !v.isBatchInRange batchId then
    (false, { v with rejectedBounds := v.rejectedBounds + 1 })
  else
    let contentHash := sha256 orderBytes
    if contentHash ∈ v.seenRevealHashes then
      (false, { v with rejectedDedup := v.rejectedDedup + 1 })
    else
      let v := { v with seenRevealHashes := insert contentHash v.seenRevealHashes }
      let forget (v : GossipValidator) : GossipValidator :=
        { v with seenRevealHashes := v.seenRevealHashes.erase contentHash }
      match v.checkRateLimit nftId batchId with
      | (false, v) => (false, forget v)
      | (true, v) =>
          match v.nftPubkeys.lookup nftId with
          | some pubkey =>
              if !verify pubkey orderBytes signature then
                (false, (forget { v with rejectedSig := v.rejectedSig + 1 }).uncount
                  nftId batchId)
              else (true, { v with accepted := v.accepted + 1 })
          | none =>
              let v := { v with
                unknownNfts := insert nftId v.unknownNfts
                rejectedUnknown := v.rejectedUnknown + 1 }
              (false, (forget v).uncount nftId batchId)

/-! ## Maintenance at a batch boundary -/

/-- Follow the chain's batch; it never moves back. -/
def updateBatch (v : GossipValidator) (batchId : UInt64) : GossipValidator :=
  if v.currentBatchId < batchId then { v with currentBatchId := batchId } else v

/-- Drop the counts of batches below the window, and every fifth batch all content
hashes. -/
def expireOldBatches (v : GossipValidator) : GossipValidator :=
  let lower := v.currentBatchId.saturatingSub batchWindow
  let v := { v with msgCounts := v.msgCounts.retain (fun k _ => lower ≤ k.2) }
  if v.currentBatchId % batchWindow = 0 then
    { v with seenCommitHashes := ∅, seenRevealHashes := ∅ }
  else v

/-- Store the key of an NFT. -/
def cachePubkey (v : GossipValidator) (nftId : UInt64) (key : VerifyingKey) :
    GossipValidator :=
  { v with
    nftPubkeys := v.nftPubkeys.insert nftId key
    unknownNfts := v.unknownNfts.erase nftId }

/-- Is it time to fetch the unknown keys? -/
def shouldFetchPubkeys (v : GossipValidator) (currentBatch : UInt64) : Bool :=
  v.unknownNfts.Nonempty && v.lastPubkeyFetchBatch + pubkeyFetchInterval ≤ currentBatch

/-- Store the answer for one unknown NFT; a failed request is repeated later. -/
def storeKey (answer : UInt64 → KeyAnswer) (v : GossipValidator) (nftId : UInt64) :
    GossipValidator :=
  match answer nftId with
  | .found key => v.cachePubkey nftId key
  | .unusable => v
  | .failed => { v with unknownNfts := insert nftId v.unknownNfts }

/-- Fetch the unknown keys when it is time.  `order` lists the unknown NFTs in the order
in which the set is drained. -/
def fetchPubkeys (v : GossipValidator) (newBatchId : UInt64) (order : List UInt64)
    (answer : UInt64 → KeyAnswer) : GossipValidator :=
  if v.shouldFetchPubkeys newBatchId then
    { order.foldl (storeKey answer) { v with unknownNfts := ∅ } with
      lastPubkeyFetchBatch := newBatchId }
  else v

/-- Start new counters. -/
def resetStats (v : GossipValidator) : GossipValidator :=
  { v with
    rejectedBounds := 0
    rejectedDedup := 0
    rejectedRate := 0
    rejectedSig := 0
    rejectedUnknown := 0
    accepted := 0 }

end GossipValidator
