/-
# The configuration of the chain

The batch parameters, the epoch and the number of pools are read from JSON, in which numbers are
strings.  Every number that is a `u64` is accepted, so every configuration is
(`fromViewResult_named`, `fromViewResult_positional`).  The clock of the node computes with what
was accepted; its computations neither divide by zero nor overflow exactly if the numbers are
`Usable` (`arithmeticSafe_iff`).
-/
import DeadmktNode.BatchClock
import DeadmktNode.CheckedArithmetic
import DeadmktNode.EventDecoding

/-! ## Numbers in JSON -/

/-- The text of the error of `str::parse::<u64>`. -/
def parseU64Error (s : List Char) : String :=
  if s.isEmpty then "cannot parse integer from empty string"
  else if 2 ^ 64 ≤ numeral 10 digitVal ((unsigned s).takeWhile (fun c => digitVal c < 10)) then
    "number too large to fit in target type"
  else "invalid digit found in string"

namespace JsonValue

/-- The element of an array. -/
def getIndex (index : ℕ) : JsonValue → Option JsonValue
  | array elements => elements[index]?
  | _ => none

/-- The fields of an object. -/
def asObject : JsonValue → Option (List (String × JsonValue))
  | object fields => some fields
  | _ => none

/-- `str::parse::<u64>`, with the error of the parsers below. -/
def parseText (s : String) : Except TypesError UInt64 :=
  match fromStrRadix 10 s.toList with
  | some n => .ok n
  | none => .error (.invalidNumber (parseU64Error s.toList))

/-- A number that is written as a string. -/
def parseU64 (val : JsonValue) (index : ℕ) : Except TypesError UInt64 :=
  match val.asStr with
  | some s => parseText s
  | none => .error (.missingField index)

/-- The value at an index. -/
def getElement (arr : JsonValue) (index : ℕ) : Except TypesError JsonValue :=
  match arr.getIndex index with
  | some val => .ok val
  | none => .error (.missingField index)

/-- The number at an index. -/
def elementU64 (arr : JsonValue) (index : ℕ) : Except TypesError UInt64 := do
  let val ← arr.getElement index
  val.parseU64 index

end JsonValue

/-- The number of a field of an object. -/
def parseObjU64 (obj : List (String × JsonValue)) (key : String) : Except TypesError UInt64 :=
  match (obj.lookup key).bind JsonValue.asStr with
  | some s => JsonValue.parseText s
  | none => .error (.deserializationError ("missing field: " ++ key))

/-! ## The configuration -/

/-- The batch parameters, from a named object in an array, else from an array of numbers. -/
def BatchParams.fromViewResult (json : JsonValue) : Except TypesError BatchParams :=
  match (json.getIndex 0).bind JsonValue.asObject with
  | some obj => do
      let blocksPerBatch ← parseObjU64 obj "blocks_per_batch"
      let commitBlocks ← parseObjU64 obj "commit_blocks"
      let revealBlocks ← parseObjU64 obj "reveal_blocks"
      let matchBlocks ← parseObjU64 obj "match_blocks"
      let swapBlocks ← parseObjU64 obj "swap_blocks"
      let commitsPerBatch ← parseObjU64 obj "commits_per_batch"
      return { blocksPerBatch, commitBlocks, revealBlocks, matchBlocks, swapBlocks,
               commitsPerBatch }
  | none => do
      let blocksPerBatch ← json.elementU64 0
      let commitBlocks ← json.elementU64 1
      let revealBlocks ← json.elementU64 2
      let matchBlocks ← json.elementU64 3
      let swapBlocks ← json.elementU64 4
      let commitsPerBatch ← json.elementU64 5
      return { blocksPerBatch, commitBlocks, revealBlocks, matchBlocks, swapBlocks,
               commitsPerBatch }

/-- The batch epoch, an array of two numbers. -/
def BatchEpoch.fromViewResult (json : JsonValue) : Except TypesError BatchEpoch := do
  let anchorBlock ← json.elementU64 0
  let anchorBatchId ← json.elementU64 1
  return { anchorBlock, anchorBatchId }

/-- The pools. -/
structure PoolState where
  numPools : UInt64
  targetPoolSize : UInt64
  liveNftCount : UInt64
  minPoolSize : UInt64
  maxPoolSize : UInt64
deriving DecidableEq, Repr

/-- The state of the pools, an array of five numbers. -/
def PoolState.fromViewResult (json : JsonValue) : Except TypesError PoolState := do
  let numPools ← json.elementU64 0
  let targetPoolSize ← json.elementU64 1
  let liveNftCount ← json.elementU64 2
  let minPoolSize ← json.elementU64 3
  let maxPoolSize ← json.elementU64 4
  return { numPools, targetPoolSize, liveNftCount, minPoolSize, maxPoolSize }

/-! ## What is accepted -/

/-- Read is exactly what spells a number. -/
theorem parseText_eq_ok_iff {s : String} {n : UInt64} :
    JsonValue.parseText s = .ok n ↔ SpellsIn 10 s.toList n := by
  rw [← fromStrRadix_eq_some_iff (by decide), JsonValue.parseText]
  cases fromStrRadix 10 s.toList with
  | none => exact iff_of_false nofun nofun
  | some m => rw [Except.ok.injEq, Option.some.injEq]

/-- A number is read at an index exactly if a string that spells it stands there. -/
theorem elementU64_eq_ok_iff {arr : JsonValue} {index : ℕ} {n : UInt64} :
    arr.elementU64 index = .ok n ↔
      ∃ s, arr.getIndex index = some (.string s) ∧ SpellsIn 10 s.toList n := by
  unfold JsonValue.elementU64 JsonValue.getElement
  cases arr.getIndex index with
  | none => exact iff_of_false nofun nofun
  | some val =>
      cases val with
      | string s =>
          show JsonValue.parseText s = .ok n ↔ _
          simp [parseText_eq_ok_iff]
      | null | bool | number | array | object =>
          exact iff_of_false nofun (by simp)

/-! ## Everything is accepted -/

/-- Numbers as an array of strings. -/
def numbersJson (ns : List UInt64) : JsonValue := .array (ns.map ChainEvent.decimal)

/-- The batch parameters as a named object in an array. -/
def BatchParams.namedJson (params : BatchParams) : JsonValue :=
  .array [.object [("blocks_per_batch", ChainEvent.decimal params.blocksPerBatch),
    ("commit_blocks", ChainEvent.decimal params.commitBlocks),
    ("reveal_blocks", ChainEvent.decimal params.revealBlocks),
    ("match_blocks", ChainEvent.decimal params.matchBlocks),
    ("swap_blocks", ChainEvent.decimal params.swapBlocks),
    ("commits_per_batch", ChainEvent.decimal params.commitsPerBatch)]]

/-- The batch parameters as an array of numbers. -/
def BatchParams.positionalJson (params : BatchParams) : JsonValue :=
  numbersJson [params.blocksPerBatch, params.commitBlocks, params.revealBlocks,
    params.matchBlocks, params.swapBlocks, params.commitsPerBatch]

/-- The batch epoch as the chain answers it. -/
def BatchEpoch.json (epoch : BatchEpoch) : JsonValue :=
  numbersJson [epoch.anchorBlock, epoch.anchorBatchId]

/-- The state of the pools as the chain answers it. -/
def PoolState.json (pools : PoolState) : JsonValue :=
  numbersJson [pools.numPools, pools.targetPoolSize, pools.liveNftCount, pools.minPoolSize,
    pools.maxPoolSize]

/-- The decimal digits of a number spell it. -/
theorem spellsIn_decimal (n : UInt64) : SpellsIn 10 (toString n.toNat).toList n := by
  rw [Nat.toString_eq_ofList_toDigits, String.toList_ofList]
  exact (fromStrRadix_eq_some_iff (by decide)).mp
    (fromStrRadix_toDigits (by decide) (by decide) n)

/-- Numbers are read back at their index. -/
theorem elementU64_numbersJson {ns : List UInt64} {index : ℕ} {n : UInt64}
    (h : ns[index]? = some n) : (numbersJson ns).elementU64 index = .ok n := by
  have hget : (numbersJson ns).getIndex index = some (ChainEvent.decimal n) := by
    show (ns.map ChainEvent.decimal)[index]? = _
    rw [List.getElem?_map, h]
    rfl
  exact elementU64_eq_ok_iff.mpr ⟨_, hget, spellsIn_decimal n⟩

/-- They are read back under their name. -/
theorem parseObjU64_of_lookup {obj : List (String × JsonValue)} {key : String} {n : UInt64}
    (h : obj.lookup key = some (ChainEvent.decimal n)) : parseObjU64 obj key = .ok n := by
  rw [parseObjU64, h]
  exact parseText_eq_ok_iff.mpr (spellsIn_decimal n)

/-- Batch parameters are accepted in the shape of the live chain, -/
theorem BatchParams.fromViewResult_named (params : BatchParams) :
    fromViewResult params.namedJson = .ok params := by
  show (do
      let blocksPerBatch ← parseObjU64 _ _
      let commitBlocks ← parseObjU64 _ _
      let revealBlocks ← parseObjU64 _ _
      let matchBlocks ← parseObjU64 _ _
      let swapBlocks ← parseObjU64 _ _
      let commitsPerBatch ← parseObjU64 _ _
      return (⟨blocksPerBatch, commitBlocks, revealBlocks, matchBlocks, swapBlocks,
        commitsPerBatch⟩ : BatchParams) : Except TypesError BatchParams) = _
  rw [parseObjU64_of_lookup (n := params.blocksPerBatch) rfl,
    parseObjU64_of_lookup (n := params.commitBlocks) rfl,
    parseObjU64_of_lookup (n := params.revealBlocks) rfl,
    parseObjU64_of_lookup (n := params.matchBlocks) rfl,
    parseObjU64_of_lookup (n := params.swapBlocks) rfl,
    parseObjU64_of_lookup (n := params.commitsPerBatch) rfl]
  rfl

/-- and in that of the older one. -/
theorem BatchParams.fromViewResult_positional (params : BatchParams) :
    fromViewResult params.positionalJson = .ok params := by
  have hobject : (params.positionalJson.getIndex 0).bind JsonValue.asObject = none := rfl
  rw [fromViewResult, hobject]
  dsimp only [positionalJson]
  repeat rw [elementU64_numbersJson rfl]
  rfl

/-- A batch epoch is read back. -/
theorem BatchEpoch.fromViewResult_json (epoch : BatchEpoch) :
    fromViewResult epoch.json = .ok epoch := by
  unfold fromViewResult json
  repeat rw [elementU64_numbersJson rfl]
  rfl

/-- So is the state of the pools. -/
theorem PoolState.fromViewResult_json (pools : PoolState) :
    fromViewResult pools.json = .ok pools := by
  unfold fromViewResult json
  repeat rw [elementU64_numbersJson rfl]
  rfl

/-! ## The clock with checked arithmetic -/

/-- `compute_batch_id` where every operation is checked; no value where one panics. -/
def checkedBatchId (blockHeight : UInt64) (epoch : BatchEpoch) (params : BatchParams) :
    Option UInt64 := do
  let blocksSince := blockHeight.saturatingSub epoch.anchorBlock
  let batches ← blocksSince.checkedDiv params.blocksPerBatch
  epoch.anchorBatchId.checkedAdd batches

/-- `compute_phase`; the ends of all phases are computed before the first comparison. -/
def checkedPhase (blockHeight : UInt64) (epoch : BatchEpoch) (params : BatchParams) :
    Option Phase := do
  let blocksSince := blockHeight.saturatingSub epoch.anchorBlock
  let blockInBatch ← blocksSince.checkedRem params.blocksPerBatch
  let commitEnd := params.commitBlocks
  let revealEnd ← commitEnd.checkedAdd params.revealBlocks
  let matchEnd ← revealEnd.checkedAdd params.matchBlocks
  return if blockInBatch < commitEnd then .commit
    else if blockInBatch < revealEnd then .reveal
    else if blockInBatch < matchEnd then .match
    else .swap

/-- `compute_new_epoch`. -/
def checkedNewEpoch (oldEpoch : BatchEpoch) (oldParams : BatchParams)
    (effectiveAtBatch : UInt64) : Option BatchEpoch := do
  let batchesAhead := effectiveAtBatch.saturatingSub oldEpoch.anchorBatchId
  let blocksAhead ← batchesAhead.checkedMul oldParams.blocksPerBatch
  let anchorBlock ← oldEpoch.anchorBlock.checkedAdd blocksAhead
  return { anchorBlock, anchorBatchId := effectiveAtBatch }

/-- `compute_pool_assignment`. -/
def checkedPoolAssignment [Externals] (nftId batchId numPools : UInt64) : Option UInt64 :=
  let hash := sha256 (nftId.toLeBytes ++ batchId.toLeBytes)
  (UInt64.ofLeBytes (hash.toList.take 8)).checkedRem numPools

section

variable {h effective : UInt64} {epoch : BatchEpoch} {params : BatchParams}

/-- A batch number is computed exactly if there are blocks in a batch and the number fits. -/
theorem checkedBatchId_isSome_iff :
    (checkedBatchId h epoch params).isSome ↔ params.blocksPerBatch ≠ 0 ∧
      epoch.anchorBatchId.toNat
        + (h.toNat - epoch.anchorBlock.toNat) / params.blocksPerBatch.toNat < 2 ^ 64 := by
  show (Option.bind _ _).isSome ↔ _
  rw [UInt64.isSome_checkedDiv_bind, UInt64.isSome_checkedAdd, UInt64.toNat_div,
    UInt64.toNat_saturatingSub]

/-- A phase is computed exactly if there are blocks in a batch and its last bound fits. -/
theorem checkedPhase_isSome_iff :
    (checkedPhase h epoch params).isSome ↔ params.blocksPerBatch ≠ 0 ∧
      params.commitBlocks.toNat + params.revealBlocks.toNat + params.matchBlocks.toNat
        < 2 ^ 64 := by
  show (Option.bind _ fun _ => Option.bind _ fun _ => Option.bind _ _).isSome ↔ _
  rw [UInt64.isSome_checkedRem_bind, UInt64.isSome_checkedAdd_bind,
    UInt64.isSome_checkedAdd_bind]
  refine and_congr_right fun _ => ?_
  constructor
  · rintro ⟨hreveal, hmatch, -⟩
    rwa [UInt64.toNat_add_of_lt hreveal] at hmatch
  · intro hsum
    have hreveal : params.commitBlocks.toNat + params.revealBlocks.toNat < 2 ^ 64 := by omega
    rw [UInt64.toNat_add_of_lt hreveal]
    exact ⟨hreveal, hsum, rfl⟩

/-- A new epoch is computed exactly if its anchor fits. -/
theorem checkedNewEpoch_isSome_iff :
    (checkedNewEpoch epoch params effective).isSome ↔
      epoch.anchorBlock.toNat + (effective.toNat - epoch.anchorBatchId.toNat)
        * params.blocksPerBatch.toNat < 2 ^ 64 := by
  show (Option.bind _ fun _ => Option.bind _ _).isSome ↔ _
  rw [UInt64.isSome_checkedMul_bind, UInt64.isSome_checkedAdd_bind, ← UInt64.toNat_saturatingSub]
  constructor
  · rintro ⟨hahead, hanchor, -⟩
    rwa [UInt64.toNat_mul_of_lt hahead] at hanchor
  · intro hsum
    have hahead : (effective.saturatingSub epoch.anchorBatchId).toNat
        * params.blocksPerBatch.toNat < 2 ^ 64 := by omega
    rw [UInt64.toNat_mul_of_lt hahead]
    exact ⟨hahead, hsum, rfl⟩

/-- The pool of an NFT panics without pools only. -/
theorem checkedPoolAssignment_isSome_iff [Externals] {nftId batchId numPools : UInt64} :
    (checkedPoolAssignment nftId batchId numPools).isSome ↔ numPools ≠ 0 := by
  exact UInt64.isSome_checkedRem

/-! What is computed with checks is what the release build computes. -/

/-- Where nothing panics, the wrapping computation of the batch agrees, -/
theorem computeBatchId_eq_of_checked {batchId : UInt64}
    (hchecked : checkedBatchId h epoch params = some batchId) :
    computeBatchId h epoch params = batchId := by
  obtain ⟨batches, hdiv, hadd⟩ := Option.bind_eq_some_iff.mp hchecked
  rw [← UInt64.eq_of_checkedAdd hadd, ← UInt64.eq_of_checkedDiv hdiv]
  rfl

/-- that of the phase agrees, -/
theorem computePhase_eq_of_checked {phase : Phase}
    (hchecked : checkedPhase h epoch params = some phase) :
    computePhase h epoch params = phase := by
  obtain ⟨blockInBatch, hrem, hchecked⟩ := Option.bind_eq_some_iff.mp hchecked
  obtain ⟨revealEnd, hreveal, hchecked⟩ := Option.bind_eq_some_iff.mp hchecked
  obtain ⟨matchEnd, hmatch, hchecked⟩ := Option.bind_eq_some_iff.mp hchecked
  rw [← Option.some.inj hchecked, ← UInt64.eq_of_checkedAdd hmatch,
    ← UInt64.eq_of_checkedAdd hreveal, ← UInt64.eq_of_checkedRem hrem]
  rfl

/-- that of the new epoch agrees, -/
theorem computeNewEpoch_eq_of_checked {newEpoch : BatchEpoch}
    (hchecked : checkedNewEpoch epoch params effective = some newEpoch) :
    computeNewEpoch epoch params effective = newEpoch := by
  obtain ⟨blocksAhead, hmul, hchecked⟩ := Option.bind_eq_some_iff.mp hchecked
  obtain ⟨anchorBlock, hadd, hchecked⟩ := Option.bind_eq_some_iff.mp hchecked
  rw [← Option.some.inj hchecked, ← UInt64.eq_of_checkedAdd hadd, ← UInt64.eq_of_checkedMul hmul]
  rfl

/-- and that of the pool. -/
theorem computePoolAssignment_eq_of_checked [Externals] {nftId batchId numPools pool : UInt64}
    (hchecked : checkedPoolAssignment nftId batchId numPools = some pool) :
    computePoolAssignment nftId batchId numPools = pool :=
  UInt64.eq_of_checkedRem hchecked

end

/-! ## Configurations that can be computed with -/

/-- At a block the clock computes without panic: its batch and its phase, the epoch of every
change that takes effect up to the next batch, and the pool of an NFT in every batch. -/
structure ArithmeticSafe [Externals] (params : BatchParams) (epoch : BatchEpoch)
    (pools : PoolState) (blockHeight nftId : UInt64) : Prop where
  batchId : (checkedBatchId blockHeight epoch params).isSome
  phase : (checkedPhase blockHeight epoch params).isSome
  newEpoch : ∀ effective : UInt64,
    effective.toNat ≤ (computeBatchId blockHeight epoch params).toNat + 1 →
      (checkedNewEpoch epoch params effective).isSome
  pool : ∀ batchId, (checkedPoolAssignment nftId batchId pools.numPools).isSome

/-- There are blocks in a batch and pools; the bounds of the phases, the batch of the block and the
first block of the batch after it, or of the last `u64` batch, are `u64`s. -/
structure Usable (params : BatchParams) (epoch : BatchEpoch) (pools : PoolState)
    (blockHeight : UInt64) : Prop where
  blocks_ne : params.blocksPerBatch ≠ 0
  pools_ne : pools.numPools ≠ 0
  phases_lt :
    params.commitBlocks.toNat + params.revealBlocks.toNat + params.matchBlocks.toNat < 2 ^ 64
  batch_lt : epoch.anchorBatchId.toNat
    + (blockHeight.toNat - epoch.anchorBlock.toNat) / params.blocksPerBatch.toNat < 2 ^ 64
  next_lt : epoch.anchorBlock.toNat
    + min ((blockHeight.toNat - epoch.anchorBlock.toNat) / params.blocksPerBatch.toNat + 1)
        (2 ^ 64 - 1 - epoch.anchorBatchId.toNat) * params.blocksPerBatch.toNat < 2 ^ 64

section

variable {h : UInt64} {epoch : BatchEpoch} {params : BatchParams}

/-- Of the changes up to the next batch the last one has the last anchor. -/
theorem newEpoch_iff (hbatch : epoch.anchorBatchId.toNat
      + (h.toNat - epoch.anchorBlock.toNat) / params.blocksPerBatch.toNat < 2 ^ 64) :
    (∀ effective : UInt64, effective.toNat ≤ (computeBatchId h epoch params).toNat + 1 →
        (checkedNewEpoch epoch params effective).isSome) ↔
      epoch.anchorBlock.toNat
        + min ((h.toNat - epoch.anchorBlock.toNat) / params.blocksPerBatch.toNat + 1)
            (2 ^ 64 - 1 - epoch.anchorBatchId.toNat) * params.blocksPerBatch.toNat < 2 ^ 64 := by
  have hcurrent : (computeBatchId h epoch params).toNat = epoch.anchorBatchId.toNat
      + (h.toNat - epoch.anchorBlock.toNat) / params.blocksPerBatch.toNat := by
    unfold computeBatchId
    dsimp only
    rw [UInt64.toNat_add, UInt64.toNat_div, UInt64.toNat_saturatingSub]
    exact Nat.mod_eq_of_lt hbatch
  generalize (h.toNat - epoch.anchorBlock.toNat) / params.blocksPerBatch.toNat = batches at *
  rw [hcurrent]
  simp only [checkedNewEpoch_isSome_iff]
  constructor
  · intro hall
    have hanchor := epoch.anchorBatchId.toNat_lt
    have hlast : (UInt64.ofNat (epoch.anchorBatchId.toNat
          + min (batches + 1) (2 ^ 64 - 1 - epoch.anchorBatchId.toNat))).toNat
        = epoch.anchorBatchId.toNat
          + min (batches + 1) (2 ^ 64 - 1 - epoch.anchorBatchId.toNat) :=
      UInt64.toNat_ofNat_of_lt' (show _ < 2 ^ 64 by omega)
    have hsafe := hall _ (hlast.le.trans (by omega))
    rwa [hlast, Nat.add_sub_cancel_left] at hsafe
  · intro hlast effective heffective
    have hlt := effective.toNat_lt
    have hahead : effective.toNat - epoch.anchorBatchId.toNat
        ≤ min (batches + 1) (2 ^ 64 - 1 - epoch.anchorBatchId.toNat) := by omega
    exact (Nat.add_le_add_left (Nat.mul_le_mul_right _ hahead) _).trans_lt hlast

/-- The clock computes without panic exactly with usable numbers. -/
theorem arithmeticSafe_iff [Externals] {pools : PoolState} {nftId : UInt64} :
    ArithmeticSafe params epoch pools h nftId ↔ Usable params epoch pools h := by
  constructor
  · intro hsafe
    obtain ⟨hblocks, hbatch⟩ := checkedBatchId_isSome_iff.mp hsafe.batchId
    exact
      { blocks_ne := hblocks
        pools_ne := checkedPoolAssignment_isSome_iff.mp (hsafe.pool 0)
        phases_lt := (checkedPhase_isSome_iff.mp hsafe.phase).2
        batch_lt := hbatch
        next_lt := (newEpoch_iff hbatch).mp hsafe.newEpoch }
  · intro husable
    exact
      { batchId := checkedBatchId_isSome_iff.mpr ⟨husable.blocks_ne, husable.batch_lt⟩
        phase := checkedPhase_isSome_iff.mpr ⟨husable.blocks_ne, husable.phases_lt⟩
        newEpoch := (newEpoch_iff husable.batch_lt).mpr husable.next_lt
        pool := fun _ => checkedPoolAssignment_isSome_iff.mpr husable.pools_ne }

end

/-- Every triple of batch parameters, epoch and pools that three JSON values are accepted as. -/
def Accepted (paramsJson epochJson poolsJson : JsonValue)
    (P : BatchParams → BatchEpoch → PoolState → Prop) : Prop :=
  ∀ params epoch pools, BatchParams.fromViewResult paramsJson = .ok params →
    BatchEpoch.fromViewResult epochJson = .ok epoch →
    PoolState.fromViewResult poolsJson = .ok pools → P params epoch pools

/-- **When an accepted configuration is usable.**  At a block, with what three JSON values are
accepted as, the clock neither divides by zero nor overflows exactly if the numbers in them are
usable; the parsers check none of it. -/
theorem accepted_arithmeticSafe_iff [Externals] (paramsJson epochJson poolsJson : JsonValue)
    (blockHeight nftId : UInt64) :
    (Accepted paramsJson epochJson poolsJson fun params epoch pools =>
        ArithmeticSafe params epoch pools blockHeight nftId) ↔
      Accepted paramsJson epochJson poolsJson fun params epoch pools =>
        Usable params epoch pools blockHeight := by
  unfold Accepted
  simp only [arithmeticSafe_iff]

/-- The reference implementation without signatures. -/
@[reducible] def unsignedExternals : Externals := referenceExternals []

section

attribute [local instance] unsignedExternals

/-- Batches without blocks are accepted, and no batch can be computed. -/
theorem not_accepted_arithmeticSafe :
    ¬ ∀ (paramsJson epochJson poolsJson : JsonValue) (blockHeight nftId : UInt64),
      Accepted paramsJson epochJson poolsJson fun params epoch pools =>
        ArithmeticSafe params epoch pools blockHeight nftId := by
  intro h
  have hsafe := h (BatchParams.mk 0 4 3 1 2 3).positionalJson (BatchEpoch.mk 1000 50).json
    (PoolState.mk 2 10 20 5 30).json 1000 42 _ _ _ (BatchParams.fromViewResult_positional _)
    (BatchEpoch.fromViewResult_json _) (PoolState.fromViewResult_json _)
  exact (checkedBatchId_isSome_iff.mp hsafe.batchId).1 rfl

end
