/-
# Batch state

The state of one batch: commits are collected in COMMIT, reveals are accepted in
REVEAL, and matching runs on the transition to MATCH.  The maps that feed the matching
engine carry their key invariant: a reveal is stored under its order hash, a market
under its symbol.
-/
import DeadmktNode.BatchClock
import DeadmktNode.Matching

/-! ## Types -/

inductive BatchStateError where
  | wrongPhaseForCommit
  | wrongPhaseForReveal
  | noMatchingCommit
  | alreadyMatched
deriving DecidableEq, Repr

/-- A commit of any node. -/
structure CommitRecord where
  batchId : UInt64
  poolId : UInt64
  hash : Hash32
  nftId : UInt64
  signature : Bytes
  revealed : Bool
deriving DecidableEq

/-- A commit of our own, with the order behind it. -/
structure OwnCommit where
  order : Order
  orderSignature : Bytes
  commitSignature : Bytes
  orderHash : Hash32
  revealed : Bool
deriving DecidableEq

structure BatchState where
  batchId : UInt64
  poolId : UInt64
  phase : Phase
  params : BatchParams
  commits : HashMap Hash32 CommitRecord
  reveals : KeyedMap Hash32 RevealedOrder RevealedOrder.orderHash
  computedMatches : List Match
  myCommits : List OwnCommit
  marketConfigs : KeyedMap Bytes MarketConfig MarketConfig.symbol
  matched : Bool

namespace BatchState

variable [Externals]

/-- The state of a new batch. -/
def new (batchId poolId : UInt64) (phase : Phase) (params : BatchParams)
    (marketConfigs : List MarketConfig) : BatchState where
  batchId := batchId
  poolId := poolId
  phase := phase
  params := params
  commits := ∅
  reveals := .empty
  computedMatches := []
  myCommits := []
  marketConfigs := .ofList marketConfigs
  matched := false

/-! ## Commits and reveals -/

/-- Store a validated commit. -/
def addCommit (s : BatchState) (batchId poolId : UInt64) (hash : Hash32) (nftId : UInt64)
    (signature : Bytes) : Except BatchStateError BatchState :=
  if s.phase ≠ .commit then .error .wrongPhaseForCommit
  else .ok { s with
    commits := s.commits.insert hash ⟨batchId, poolId, hash, nftId, signature, false⟩ }

/-- Store a validated reveal, whose commit must be known. -/
def addReveal (s : BatchState) (order : Order) (signature : Bytes) :
    Except BatchStateError BatchState :=
  if s.phase ≠ .reveal then .error .wrongPhaseForReveal
  else
    let hash := orderHash order
    match s.commits.lookup hash with
    | none => .error .noMatchingCommit
    | some c => .ok { s with
        commits := s.commits.insert hash { c with revealed := true }
        reveals := s.reveals.insert ⟨order, signature, hash⟩ }

/-! ## Phase transitions -/

/-- The input of the matching engine: reveals and markets in the iteration order of
their maps. -/
def matchingInput (s : BatchState) : MatchingInput where
  batchId := s.batchId
  poolId := s.poolId
  reveals := s.reveals.map.values
  markets := s.marketConfigs.map.values

/-- Run the matching engine on all revealed orders, once a batch. -/
def runMatchingOnce (s : BatchState) : BatchState :=
  if s.matched then s
  else { s with computedMatches := runMatching s.matchingInput, matched := true }

/-- Enter a phase; entering MATCH runs the matching engine. -/
def transitionTo (s : BatchState) (newPhase : Phase) : BatchState :=
  let s := { s with phase := newPhase }
  if newPhase = .match ∧ ¬ s.matched then s.runMatchingOnce else s

/-! ## Own orders -/

/-- Sign and store an order of our own. -/
def createOwnCommit (s : BatchState) (secret : SigningKey) (order : Order) :
    BatchState × OwnCommit :=
  let hash := orderHash order
  let own : OwnCommit := {
    order := order
    orderSignature := signOrder secret order
    commitSignature := signCommit secret s.batchId s.poolId hash.toList
    orderHash := hash
    revealed := false }
  ({ s with myCommits := s.myCommits ++ [own] }, own)

/-- Mark our commits under a hash as revealed. -/
def markOwnRevealed (s : BatchState) (hash : Hash32) : BatchState :=
  { s with myCommits := s.myCommits.map (fun c =>
      if c.orderHash = hash then { c with revealed := true } else c) }

/-! ## Batch rollover -/

/-- Start over for a new batch. -/
def resetForNewBatch (s : BatchState) (batchId poolId : UInt64) (phase : Phase)
    (marketConfigs : List MarketConfig) : BatchState :=
  { s with
    batchId := batchId
    poolId := poolId
    phase := phase
    commits := ∅
    reveals := .empty
    computedMatches := []
    myCommits := []
    marketConfigs := .ofList marketConfigs
    matched := false }

end BatchState
