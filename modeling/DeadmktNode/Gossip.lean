/-
# Gossip messages and the two bridges

The messages on the wire, the ports through which the orchestrator reaches gossip and
the batch clock, and the bridges of the run loop that implement them: `GossipBridge`
buffers outbound messages and keeps inbound ones by batch, `BatchStateBridge` holds
its own copy of epoch, parameters and pool count.
-/
import DeadmktNode.BatchClock
import DeadmktNode.HashMap

/-! ## Messages -/

/-- Everything that nodes exchange. -/
inductive GossipMessage where
  | commitment (batchId poolId : UInt64) (hash : Hash32) (nftId : UInt64) (signature : Bytes)
  | reveal (batchId poolId : UInt64) (order : Order) (signature : Bytes)
  | batchComplete (batchId poolId : UInt64) (symbol : Bytes)
      (avgSettlementPrice volume matchCount : UInt64) (numCommits numReveals : UInt32)
      (senderNftId : UInt64) (signature : Bytes)
  | settlementReport (batchId : UInt64) (matchHash : Hash32) (settled : Bool)
      (bailerNft reporterNftId : UInt64) (signature : Bytes)
deriving DecidableEq

/-- A commit as the orchestrator handles it. -/
structure CommitMessage where
  nftId : UInt64
  poolId : UInt64
  batchId : UInt64
  commitHash : Bytes
deriving DecidableEq

/-- A reveal as the orchestrator handles it. -/
structure RevealMessage where
  nftId : UInt64
  poolId : UInt64
  batchId : UInt64
  orderBytes : Bytes
  signature : Bytes
deriving DecidableEq

/-! ## Ports -/

/-- The gossip layer.  Publishing returns the layer afterwards, or the error with which
nothing was published. -/
class GossipPort (G : Type) where
  publishCommit : G → UInt64 → CommitMessage → Except String G
  publishReveal : G → UInt64 → RevealMessage → Except String G
  receivedCommits : G → UInt64 → List CommitMessage
  receivedReveals : G → UInt64 → List RevealMessage

/-- The batch clock. -/
class BatchStatePort (B : Type) where
  currentPhase : B → Phase
  currentBatchId : B → UInt64
  currentPoolId : B → UInt64 → UInt64
  advanceToBlock : B → UInt64 → B
  numPools : B → UInt64
  setNumPools : B → UInt64 → B
  reloadParams : B → BatchParams → B

/-! ## The gossip bridge -/

/-- Buffers between the synchronous port and the gossip task. -/
structure GossipBridge where
  pendingCommits : List (UInt64 × GossipMessage)
  pendingReveals : List (UInt64 × GossipMessage)
  inboundCommits : HashMap UInt64 (List CommitMessage)
  inboundReveals : HashMap UInt64 (List RevealMessage)

namespace GossipBridge

/-- The bridge at start-up. -/
def new : GossipBridge := ⟨[], [], ∅, ∅⟩

/-- Queue a commit; its hash is cut or padded to 32 bytes and it carries no signature. -/
def publishCommit (g : GossipBridge) (poolId : UInt64) (commit : CommitMessage) :
    GossipBridge :=
  let msg := GossipMessage.commitment commit.batchId commit.poolId
    (Sha256.toHash32 commit.commitHash) commit.nftId (List.replicate 64 0)
  { g with pendingCommits := g.pendingCommits ++ [(poolId, msg)] }

/-- The order that stands for bytes that do not decode; its symbol is `UNKNOWN`. -/
def placeholderOrder (reveal : RevealMessage) : Order where
  nftId := reveal.nftId
  symbol := [85, 78, 75, 78, 79, 87, 78]
  side := 0
  price := 0
  quantity := 0
  batchId := reveal.batchId
  nonce := reveal.orderBytes

/-- The message that a published reveal becomes. -/
def revealMessage [Externals] (reveal : RevealMessage) : GossipMessage :=
  let order := (decodeOrder reveal.orderBytes).getD (placeholderOrder reveal)
  .reveal reveal.batchId reveal.poolId order reveal.signature

/-- Queue a reveal. -/
def publishReveal [Externals] (g : GossipBridge) (poolId : UInt64) (reveal : RevealMessage) :
    GossipBridge :=
  { g with pendingReveals := g.pendingReveals ++ [(poolId, revealMessage reveal)] }

/-- The commits of a batch that were received. -/
def receivedCommits (g : GossipBridge) (batchId : UInt64) : List CommitMessage :=
  (g.inboundCommits.lookup batchId).getD []

/-- The reveals of a batch that were received. -/
def receivedReveals (g : GossipBridge) (batchId : UInt64) : List RevealMessage :=
  (g.inboundReveals.lookup batchId).getD []

/-- Store an accepted commit under its batch. -/
def storeCommit (g : GossipBridge) (commit : CommitMessage) : GossipBridge :=
  { g with
    inboundCommits := g.inboundCommits.upsert commit.batchId [] (fun cs => cs ++ [commit]) }

/-- Store an accepted reveal under its batch. -/
def storeReveal (g : GossipBridge) (reveal : RevealMessage) : GossipBridge :=
  { g with
    inboundReveals := g.inboundReveals.upsert reveal.batchId [] (fun rs => rs ++ [reveal]) }

/-- Drop inbound messages of batches below `lower`. -/
def expireInbound (g : GossipBridge) (lower : UInt64) : GossipBridge :=
  { g with
    inboundCommits := g.inboundCommits.retain (fun b _ => lower ≤ b)
    inboundReveals := g.inboundReveals.retain (fun b _ => lower ≤ b) }

/-- Drain the outbound queues: commits first, then reveals. -/
def flush (g : GossipBridge) : GossipBridge × List (UInt64 × GossipMessage) :=
  ({ g with pendingCommits := [], pendingReveals := [] },
    g.pendingCommits ++ g.pendingReveals)

instance [Externals] : GossipPort GossipBridge where
  publishCommit g poolId commit := .ok (g.publishCommit poolId commit)
  publishReveal g poolId reveal := .ok (g.publishReveal poolId reveal)
  receivedCommits := receivedCommits
  receivedReveals := receivedReveals

@[simp] theorem receivedReveals_storeReveal (g : GossipBridge) (r : RevealMessage)
    (b : UInt64) :
    (g.storeReveal r).receivedReveals b
      = if b = r.batchId then g.receivedReveals b ++ [r] else g.receivedReveals b := by
  unfold receivedReveals storeReveal
  rw [AList.getD_lookup_upsert]
  by_cases h : b = r.batchId
  · subst h; rfl
  · rw [if_neg h, if_neg h]

@[simp] theorem receivedReveals_storeCommit (g : GossipBridge) (c : CommitMessage)
    (b : UInt64) : (g.storeCommit c).receivedReveals b = g.receivedReveals b := rfl

/-- Expiry keeps a batch or drops all its reveals. -/
@[simp] theorem receivedReveals_expireInbound (g : GossipBridge) (lower b : UInt64) :
    (g.expireInbound lower).receivedReveals b
      = if lower ≤ b then g.receivedReveals b else [] := by
  unfold receivedReveals expireInbound
  dsimp only
  rw [AList.lookup_retain]
  cases g.inboundReveals.lookup b with
  | none => simp
  | some rs => by_cases h : lower ≤ b <;> simp [h, Option.filter]

@[simp] theorem receivedReveals_flush (g : GossipBridge) (b : UInt64) :
    g.flush.1.receivedReveals b = g.receivedReveals b := rfl

end GossipBridge

/-! ## The batch-state bridge -/

/-- The clock of the orchestrator, with its own copies of epoch, parameters and pool
count. -/
structure BatchStateBridge where
  blockHeight : UInt64
  epoch : BatchEpoch
  params : BatchParams
  numPools : UInt64
  nftId : UInt64
deriving DecidableEq

namespace BatchStateBridge

/-- The bridge at start-up. -/
def new (epoch : BatchEpoch) (params : BatchParams) (numPools nftId : UInt64) :
    BatchStateBridge := ⟨epoch.anchorBlock, epoch, params, numPools, nftId⟩

def currentPhase (s : BatchStateBridge) : Phase :=
  computePhase s.blockHeight s.epoch s.params

def currentBatchId (s : BatchStateBridge) : UInt64 :=
  computeBatchId s.blockHeight s.epoch s.params

def currentPoolId [Externals] (s : BatchStateBridge) (nftId : UInt64) : UInt64 :=
  computePoolAssignment nftId s.currentBatchId (max s.numPools 1)

instance [Externals] : BatchStatePort BatchStateBridge where
  currentPhase := currentPhase
  currentBatchId := currentBatchId
  currentPoolId := currentPoolId
  advanceToBlock s blockHeight := { s with blockHeight := blockHeight }
  numPools := numPools
  setNumPools s n := { s with numPools := n }
  reloadParams s params := { s with params := params }

end BatchStateBridge
