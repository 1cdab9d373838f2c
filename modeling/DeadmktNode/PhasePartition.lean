/-
# Phases partition a batch

The batch of a block is a quotient and its phase a remainder by the same `blocks_per_batch`.
When the first three phases fit into a batch, the blocks of a batch are `blocks_per_batch`
consecutive ones and split into the four runs of its phases, in order; when no run is empty, the
phase changes from one block to the next exactly where a run starts (`phases_partition`).
-/
import DeadmktNode.EpochChain

/-- Detects a phase boundary between two blocks. -/
def isPhaseBoundary (oldBlock newBlock : UInt64) (epoch : BatchEpoch) (params : BatchParams) :
    Bool :=
  computePhase oldBlock epoch params != computePhase newBlock epoch params

/-! ## The runs of a batch -/

namespace BatchParams

/-- The first three phases fit into a batch. -/
def PhasesFit (params : BatchParams) : Prop :=
  params.commitBlocks.toNat + params.revealBlocks.toNat + params.matchBlocks.toNat
    ≤ params.blocksPerBatch.toNat

/-- The number of blocks of a phase; SWAP has the rest of the batch. -/
def runLength (params : BatchParams) : Phase → ℕ
  | .commit => params.commitBlocks.toNat
  | .reveal => params.revealBlocks.toNat
  | .match => params.matchBlocks.toNat
  | .swap => params.blocksPerBatch.toNat
      - (params.commitBlocks.toNat + params.revealBlocks.toNat + params.matchBlocks.toNat)

/-- The number of blocks of a batch before a phase. -/
def runOffset (params : BatchParams) : Phase → ℕ
  | .commit => 0
  | .reveal => params.runLength .commit
  | .match => params.runLength .commit + params.runLength .reveal
  | .swap => params.runLength .commit + params.runLength .reveal + params.runLength .match

/-- The places that a phase has in its batch. -/
def run (params : BatchParams) (phase : Phase) : Set ℕ :=
  Set.Ico (params.runOffset phase) (params.runOffset phase + params.runLength phase)

variable {params : BatchParams} (hfit : params.PhasesFit)

include hfit

/-- The last run ends with the batch. -/
theorem PhasesFit.swap_end :
    params.runOffset .swap + params.runLength .swap = params.blocksPerBatch.toNat := by
  unfold PhasesFit at hfit
  simp only [runOffset, runLength]
  omega

theorem PhasesFit.run_end_le (phase : Phase) :
    params.runOffset phase + params.runLength phase ≤ params.blocksPerBatch.toNat := by
  unfold PhasesFit at hfit
  cases phase <;> simp only [runOffset, runLength] <;> omega

/-- The sums that bound the phases do not overflow. -/
theorem PhasesFit.toNat_matchEnd :
    (params.commitBlocks + params.revealBlocks).toNat
        = params.commitBlocks.toNat + params.revealBlocks.toNat ∧
      (params.commitBlocks + params.revealBlocks + params.matchBlocks).toNat
        = params.commitBlocks.toNat + params.revealBlocks.toNat + params.matchBlocks.toNat := by
  unfold PhasesFit at hfit
  have hblocks := params.blocksPerBatch.toNat_lt
  constructor
  · rw [UInt64.toNat_add]
    exact Nat.mod_eq_of_lt (by omega)
  · rw [UInt64.toNat_add, UInt64.toNat_add,
      Nat.mod_eq_of_lt (a := params.commitBlocks.toNat + params.revealBlocks.toNat) (by omega)]
    exact Nat.mod_eq_of_lt (by omega)

end BatchParams

/-! ## Phases are runs -/

namespace Era

/-- The first block of a phase of a batch. -/
def runStart (e : Era) (batchId : UInt64) (phase : Phase) : ℕ :=
  e.pace.runStart batchId.toNat + e.params.runOffset phase

/-- All blocks of the batch are `u64`s. -/
def Holds (e : Era) (batchId : UInt64) : Prop :=
  e.pace.runStart batchId.toNat + e.params.blocksPerBatch.toNat ≤ 2 ^ 64

/-- The phase of a block is the one whose run has its place in the batch. -/
theorem computePhase_eq_iff {e : Era} (hfit : e.params.PhasesFit) {h : UInt64} {phase : Phase} :
    computePhase h e.epoch e.params = phase ↔ e.pace.place h.toNat ∈ e.params.run phase := by
  obtain ⟨hreveal, hmatch⟩ := hfit.toNat_matchEnd
  have hswap := hfit.swap_end
  have hlt : e.pace.place h.toNat < e.params.blocksPerBatch.toNat := e.pace.place_lt _
  have hplace : (h.saturatingSub e.epoch.anchorBlock % e.params.blocksPerBatch).toNat
      = e.pace.place h.toNat := by
    rw [UInt64.toNat_mod, UInt64.toNat_saturatingSub]
    rfl
  simp only [computePhase, UInt64.lt_iff_toNat_lt, hplace, hreveal, hmatch]
  rw [BatchParams.run, Set.mem_Ico]
  simp only [BatchParams.runOffset, BatchParams.runLength] at hswap
  split_ifs
  all_goals
    cases phase <;>
      simp only [reduceCtorEq, true_iff, false_iff, BatchParams.runOffset,
        BatchParams.runLength] <;>
      omega

variable {e : Era}

/-- A number that is no larger than a `u64` is the batch of a block: where the computed number
wraps around it lies below the anchor. -/
theorem computeBatchId_eq_iff {h batchId : UInt64} (hb : e.epoch.anchorBatchId ≤ batchId) :
    computeBatchId h e.epoch e.params = batchId ↔ e.pace.number h.toNat = batchId.toNat := by
  rw [UInt64.le_iff_toNat_le] at hb
  have hquotient := Nat.div_le_self (h.toNat - e.epoch.anchorBlock.toNat)
    e.params.blocksPerBatch.toNat
  have hnumber : e.pace.number h.toNat = e.epoch.anchorBatchId.toNat
      + (h.toNat - e.epoch.anchorBlock.toNat) / e.params.blocksPerBatch.toNat := rfl
  have hh := h.toNat_lt
  have hbatch := batchId.toNat_lt
  rw [← UInt64.toNat_inj]
  unfold computeBatchId
  dsimp only
  rw [UInt64.toNat_add, UInt64.toNat_div, UInt64.toNat_saturatingSub, hnumber]
  omega

/-- The blocks that have their place of a batch in an interval are an interval. -/
theorem image_places {batchId : UInt64} (hb : e.epoch.anchorBatchId ≤ batchId)
    (hholds : e.Holds batchId) {i j : ℕ} (hj : j ≤ e.params.blocksPerBatch.toNat) :
    UInt64.toNat '' {h | e.epoch.anchorBlock ≤ h ∧ computeBatchId h e.epoch e.params = batchId ∧
        e.pace.place h.toNat ∈ Set.Ico i j}
      = Set.Ico (e.pace.runStart batchId.toNat + i) (e.pace.runStart batchId.toNat + j) := by
  have hiff : ∀ {n : ℕ}, e.epoch.anchorBlock.toNat ≤ n →
      (e.pace.number n = batchId.toNat ∧ e.pace.place n ∈ Set.Ico i j ↔
        n ∈ Set.Ico (e.pace.runStart batchId.toNat + i) (e.pace.runStart batchId.toNat + j)) :=
    fun hn => e.pace.number_eq_and_place_mem_iff hn (UInt64.le_iff_toNat_le.mp hb) hj
  ext n
  constructor
  · rintro ⟨h, ⟨hh, hbatch, hplace⟩, rfl⟩
    exact (hiff (UInt64.le_iff_toNat_le.mp hh)).mp ⟨(computeBatchId_eq_iff hb).mp hbatch, hplace⟩
  · intro hn
    have hanchor : e.pace.start ≤ n :=
      (Nat.le_add_right _ _).trans ((Nat.le_add_right _ _).trans hn.1)
    have hlt : n < 2 ^ 64 := by
      unfold Holds at hholds
      have := hn.2
      omega
    have hnat : (UInt64.ofNat n).toNat = n := UInt64.toNat_ofNat_of_lt' hlt
    obtain ⟨hnumber, hplace⟩ := (hiff hanchor).mpr hn
    refine ⟨UInt64.ofNat n, ⟨?_, ?_, ?_⟩, hnat⟩
    · rwa [UInt64.le_iff_toNat_le, hnat]
    · rwa [computeBatchId_eq_iff hb, hnat]
    · rwa [hnat]

/-- A block starts a run exactly if its place in its batch does. -/
theorem exists_eq_runStart_iff (hfit : e.params.PhasesFit)
    (hpos : ∀ phase, 0 < e.params.runLength phase) {h : UInt64} (hh : e.epoch.anchorBlock ≤ h)
    (hnumbers : e.Numbers h) :
    (∃ batchId phase, e.epoch.anchorBatchId ≤ batchId ∧ h.toNat = e.runStart batchId phase) ↔
      ∃ phase, e.pace.place h.toNat = e.params.runOffset phase := by
  have hlt : ∀ phase, e.params.runOffset phase < e.pace.length := by
    intro phase
    have hend : _ ≤ e.pace.length := hfit.run_end_le phase
    have := hpos phase
    omega
  have hstart : e.pace.start ≤ h.toNat := UInt64.le_iff_toNat_le.mp hh
  constructor
  · rintro ⟨batchId, phase, hb, hrun⟩
    exact ⟨phase, ((e.pace.number_eq_and_place_eq_iff hstart (UInt64.le_iff_toNat_le.mp hb)
      (hlt phase)).mpr hrun).2⟩
  · rintro ⟨phase, hplace⟩
    have hbatch : (e.batchId h).toNat = e.pace.number h.toNat := toNat_batchId hnumbers
    have hb : e.pace.first ≤ (e.batchId h).toNat := hbatch ▸ e.pace.first_le_number _
    exact ⟨e.batchId h, phase, UInt64.le_iff_toNat_le.mpr hb,
      (e.pace.number_eq_and_place_eq_iff hstart hb (hlt phase)).mp ⟨hbatch.symm, hplace⟩⟩

/-- Where no run is empty, the phase changes exactly where the next place starts a run. -/
theorem isPhaseBoundary_iff_place (hfit : e.params.PhasesFit)
    (hpos : ∀ phase, 0 < e.params.runLength phase) {h h' : UInt64}
    (hh : e.epoch.anchorBlock ≤ h) (hsucc : h'.toNat = h.toNat + 1) :
    isPhaseBoundary h h' e.epoch e.params = true ↔
      ∃ phase, e.pace.place h'.toNat = e.params.runOffset phase := by
  have hplace := e.pace.place_succ (UInt64.le_iff_toNat_le.mp hh)
  have hrun : e.pace.place h.toNat ∈ e.params.run (computePhase h e.epoch e.params) :=
    (computePhase_eq_iff hfit).mp rfl
  rw [← hsucc] at hplace
  rw [isPhaseBoundary, bne_iff_ne]
  constructor
  · intro hne
    by_contra hnone
    rw [not_exists] at hnone
    -- the next place is inside of the run of the next phase, and so is this one
    have hnext : e.pace.place h'.toNat ∈ e.params.run (computePhase h' e.epoch e.params) :=
      (computePhase_eq_iff hfit).mp rfl
    have hinside := hnone (computePhase h' e.epoch e.params)
    have hfirst : e.pace.place h'.toNat ≠ 0 := hnone .commit
    apply hne
    rw [computePhase_eq_iff hfit]
    rw [BatchParams.run, Set.mem_Ico] at hnext ⊢
    split_ifs at hplace
    · exact absurd hplace hfirst
    · omega
  · rintro ⟨phase, hoffset⟩ hsame
    have hphase : computePhase h' e.epoch e.params = phase := by
      rw [computePhase_eq_iff hfit, BatchParams.run, hoffset, Set.mem_Ico]
      have := hpos phase
      omega
    rw [hsame, hphase, BatchParams.run, Set.mem_Ico, ← hoffset] at hrun
    split_ifs at hplace with hlast
    · -- after the last block of a batch COMMIT begins, and COMMIT is not the whole batch
      have hswap := hfit.swap_end
      have hlength : e.pace.length = e.params.blocksPerBatch.toNat := rfl
      have hc := hpos .commit
      have hr := hpos .reveal
      have hm := hpos .match
      have hs := hpos .swap
      cases phase <;> simp only [BatchParams.runOffset] at hswap hoffset <;> omega
    · omega

end Era

/-! ## The partition -/

/-- **Phases partition every batch.**  If the first three phases fit into a batch, the blocks of a
batch are `blocks_per_batch` consecutive ones, and those of each phase are its run.  If moreover
no run is empty, a phase boundary lies before a block exactly if the block starts a run. -/
theorem phases_partition (e : Era) (hfit : e.params.PhasesFit) :
    (∀ batchId, e.epoch.anchorBatchId ≤ batchId → e.Holds batchId →
      UInt64.toNat '' {h | e.epoch.anchorBlock ≤ h ∧ computeBatchId h e.epoch e.params = batchId}
          = Set.Ico (e.runStart batchId .commit)
              (e.runStart batchId .commit + e.params.blocksPerBatch.toNat) ∧
        ∀ phase, UInt64.toNat '' {h | e.epoch.anchorBlock ≤ h ∧
              computeBatchId h e.epoch e.params = batchId ∧
              computePhase h e.epoch e.params = phase}
            = Set.Ico (e.runStart batchId phase)
                (e.runStart batchId phase + e.params.runLength phase)) ∧
      ((∀ phase, 0 < e.params.runLength phase) →
        ∀ h h' : UInt64, e.epoch.anchorBlock ≤ h → h'.toNat = h.toNat + 1 → e.Numbers h' →
          (isPhaseBoundary h h' e.epoch e.params = true ↔
            ∃ batchId phase, e.epoch.anchorBatchId ≤ batchId ∧
              h'.toNat = e.runStart batchId phase)) := by
  refine ⟨?_, ?_⟩
  · intro batchId hb hholds
    refine ⟨?_, ?_⟩
    · have hplaces := Era.image_places hb hholds (i := 0) (le_refl _)
      have hlt : ∀ h, e.pace.place h < e.params.blocksPerBatch.toNat := e.pace.place_lt
      simpa [Era.runStart, BatchParams.runOffset, hlt] using hplaces
    · intro phase
      have hplaces := Era.image_places hb hholds (i := e.params.runOffset phase)
        (hfit.run_end_le phase)
      simp only [Era.computePhase_eq_iff hfit]
      rw [Era.runStart, Nat.add_assoc]
      exact hplaces
  · intro hpos h h' hh hsucc hnumbers
    have hh' : e.epoch.anchorBlock ≤ h' := by
      rw [UInt64.le_iff_toNat_le] at hh ⊢
      omega
    rw [Era.exists_eq_runStart_iff hfit hpos hh' hnumbers]
    exact Era.isPhaseBoundary_iff_place hfit hpos hh hsucc

theorem tenBlocks_pos : 0 < (BatchParams.mk 10 4 3 1 2 3).blocksPerBatch := by decide

/-- Batches of ten blocks from block 1000 on, of which batch 50 is the first. -/
def tenBlocks : Era where
  epoch := ⟨1000, 50⟩
  params := ⟨10, 4, 3, 1, 2, 3⟩
  blocks_pos := tenBlocks_pos

theorem phases_partition_tenBlocks :
    UInt64.toNat '' {h | 1000 ≤ h ∧ computeBatchId h tenBlocks.epoch tenBlocks.params = 50 ∧
        computePhase h tenBlocks.epoch tenBlocks.params = .swap} = Set.Ico 1008 1010 ∧
      isPhaseBoundary 1009 1010 tenBlocks.epoch tenBlocks.params = true := by
  have hfit : tenBlocks.params.PhasesFit := by unfold BatchParams.PhasesFit; decide
  have hholds : tenBlocks.Holds 50 := by unfold Era.Holds; decide
  have hnumbers : tenBlocks.Numbers 1010 := by unfold Era.Numbers; decide
  have hpos : ∀ phase, 0 < tenBlocks.params.runLength phase := by
    intro phase
    cases phase <;> decide
  exact ⟨((phases_partition tenBlocks hfit).1 50 (by decide) hholds).2 .swap,
    ((phases_partition tenBlocks hfit).2 hpos 1009 1010 (by decide) (by decide) hnumbers).mpr
      ⟨51, .commit, by decide, by decide⟩⟩
