/-
# The batch clock

Batch number, phase and pool assignment as pure functions of the block height.  All
quantities are `u64`, with the wrapping arithmetic of the release build.  The code
divides by `blocks_per_batch` and by the number of pools: at `0` it panics, where
these functions return `UInt64`'s value.
-/
import DeadmktNode.Crypto

/-! ## Saturating arithmetic -/

/-- `u64::saturating_sub`. -/
def UInt64.saturatingSub (a b : UInt64) : UInt64 := if b ≤ a then a - b else 0

/-- `u64::saturating_add`. -/
def UInt64.saturatingAdd (a b : UInt64) : UInt64 := if a ≤ a + b then a + b else -1

@[simp] theorem UInt64.toNat_saturatingSub (a b : UInt64) :
    (a.saturatingSub b).toNat = a.toNat - b.toNat := by
  unfold UInt64.saturatingSub
  split_ifs with h
  · exact UInt64.toNat_sub_of_le a b h
  · have := UInt64.not_le.mp h
    rw [UInt64.lt_iff_toNat_lt] at this
    rw [Nat.sub_eq_zero_of_le this.le]
    rfl

/-! ## Chain parameters -/

/-- The phases of a batch. -/
inductive Phase where
  | commit
  | reveal
  | match
  | swap
deriving DecidableEq, Repr

/-- The lengths of a batch and of its phases, in blocks. -/
structure BatchParams where
  blocksPerBatch : UInt64
  commitBlocks : UInt64
  revealBlocks : UInt64
  matchBlocks : UInt64
  swapBlocks : UInt64
  commitsPerBatch : UInt64
deriving DecidableEq, Repr

/-- The block at which a known batch starts. -/
structure BatchEpoch where
  anchorBlock : UInt64
  anchorBatchId : UInt64
deriving DecidableEq, Repr

/-! ## Batch, phase and pool -/

/-- The batch of a block. -/
def computeBatchId (blockHeight : UInt64) (epoch : BatchEpoch) (params : BatchParams) :
    UInt64 :=
  let blocksSince := blockHeight.saturatingSub epoch.anchorBlock
  epoch.anchorBatchId + blocksSince / params.blocksPerBatch

/-- The phase of a block. -/
def computePhase (blockHeight : UInt64) (epoch : BatchEpoch) (params : BatchParams) : Phase :=
  let blocksSince := blockHeight.saturatingSub epoch.anchorBlock
  let blockInBatch := blocksSince % params.blocksPerBatch
  let commitEnd := params.commitBlocks
  let revealEnd := commitEnd + params.revealBlocks
  let matchEnd := revealEnd + params.matchBlocks
  if blockInBatch < commitEnd then .commit
  else if blockInBatch < revealEnd then .reveal
  else if blockInBatch < matchEnd then .match
  else .swap

/-- The epoch that starts when a parameter change takes effect. -/
def computeNewEpoch (oldEpoch : BatchEpoch) (oldParams : BatchParams)
    (effectiveAtBatch : UInt64) : BatchEpoch :=
  let batchesAhead := effectiveAtBatch.saturatingSub oldEpoch.anchorBatchId
  { anchorBlock := oldEpoch.anchorBlock + batchesAhead * oldParams.blocksPerBatch
    anchorBatchId := effectiveAtBatch }

/-- The pool of an NFT in a batch: eight bytes of a hash, modulo the number of pools. -/
def computePoolAssignment [Externals] (nftId batchId numPools : UInt64) : UInt64 :=
  let hash := sha256 (nftId.toLeBytes ++ batchId.toLeBytes)
  UInt64.ofLeBytes (hash.toList.take 8) % numPools

/-! ## COMMIT begins a batch -/

theorem computePhase_eq_commit_iff {h : UInt64} {epoch : BatchEpoch} {params : BatchParams} :
    computePhase h epoch params = .commit ↔
      h.saturatingSub epoch.anchorBlock % params.blocksPerBatch < params.commitBlocks := by
  unfold computePhase
  dsimp only
  split_ifs with hcommit
  · exact iff_of_true rfl hcommit
  · exact iff_of_false (by decide) hcommit
  · exact iff_of_false (by decide) hcommit
  · exact iff_of_false (by decide) hcommit

/-- Equal sums of `u64` have equal parts, also where they wrap around. -/
theorem eq_of_add_eq_add {a x y : UInt64} (h : a + x = a + y) : x = y := by
  have hnat := congrArg UInt64.toNat h
  have hx := x.toNat_lt
  have hy := y.toNat_lt
  rw [UInt64.toNat_add, UInt64.toNat_add] at hnat
  apply UInt64.toNat_inj.mp
  omega

/-- Between two blocks of a batch of which the second is in COMMIT, all blocks are in COMMIT of
that batch.  Batch numbers may wrap around; two blocks never share one for that reason. -/
theorem commit_of_between {epoch : BatchEpoch} {params : BatchParams} {h₁ h h₂ : UInt64}
    (hle₁ : h₁ ≤ h) (hle₂ : h ≤ h₂)
    (hbatch : computeBatchId h₁ epoch params = computeBatchId h₂ epoch params)
    (hcommit : computePhase h₂ epoch params = .commit) :
    computeBatchId h epoch params = computeBatchId h₂ epoch params ∧
      computePhase h epoch params = .commit := by
  have hdiv : h₁.saturatingSub epoch.anchorBlock / params.blocksPerBatch
      = h₂.saturatingSub epoch.anchorBlock / params.blocksPerBatch :=
    eq_of_add_eq_add hbatch
  have hsince₁ : h₁.toNat - epoch.anchorBlock.toNat ≤ h.toNat - epoch.anchorBlock.toNat :=
    Nat.sub_le_sub_right (UInt64.le_iff_toNat_le.mp hle₁) _
  have hsince₂ : h.toNat - epoch.anchorBlock.toNat ≤ h₂.toNat - epoch.anchorBlock.toNat :=
    Nat.sub_le_sub_right (UInt64.le_iff_toNat_le.mp hle₂) _
  -- the number of batches since the anchor is the same for all three
  have hdivNat := congrArg UInt64.toNat hdiv
  rw [UInt64.toNat_div, UInt64.toNat_div, UInt64.toNat_saturatingSub,
    UInt64.toNat_saturatingSub] at hdivNat
  have hsame : (h.toNat - epoch.anchorBlock.toNat) / params.blocksPerBatch.toNat
      = (h₂.toNat - epoch.anchorBlock.toNat) / params.blocksPerBatch.toNat :=
    Nat.le_antisymm (Nat.div_le_div_right hsince₂)
      (hdivNat ▸ Nat.div_le_div_right hsince₁)
  refine ⟨?_, ?_⟩
  · unfold computeBatchId
    dsimp only
    congr 1
    apply UInt64.toNat_inj.mp
    rw [UInt64.toNat_div, UInt64.toNat_div, UInt64.toNat_saturatingSub,
      UInt64.toNat_saturatingSub, hsame]
  · rw [computePhase_eq_commit_iff, UInt64.lt_iff_toNat_lt, UInt64.toNat_mod,
      UInt64.toNat_saturatingSub] at hcommit ⊢
    have hmod := Nat.div_add_mod (h.toNat - epoch.anchorBlock.toNat)
      params.blocksPerBatch.toNat
    have hmod₂ := Nat.div_add_mod (h₂.toNat - epoch.anchorBlock.toNat)
      params.blocksPerBatch.toNat
    rw [hsame] at hmod
    omega
