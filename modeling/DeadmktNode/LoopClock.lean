/-
# The two clocks

The loop and the orchestrator each have a copy of epoch, parameters and pool count.  Both
copies start equal.  At a batch boundary the loop fetches its copy again and passes on only
a new pool count; the orchestrator's parameters change only with a governance event.  So
the two name the same batch, phase and pool for a block exactly when the fetched values
and the start-up values happen to agree there.
-/
import DeadmktNode.LoopCore

namespace RunLoop

section

variable [Externals]

/-! ## The orchestrator's copy -/

/-- The chain events that are polled with an input. -/
def polledEvents (l : RunLoop) : Input → Option (List ChainEvent)
  | .gossip _ => none
  | .block obs =>
      if l.lastBlock < obs.block ∧ ¬ (l.Transition obs ∧ l.Behind obs) then
        some (l.core.polled obs)
      else none

/-- The parameters after a chain event. -/
def reloadedBy (params : BatchParams) : ChainEvent → BatchParams
  | .parameterChangeApplied _ paramName newValue =>
      Orchestrator.reloadedParams paramName newValue
  | _ => params

omit [Externals] in
theorem bridge_foldl_follow (c : Core) (events : List ChainEvent) :
    (events.foldl Core.follow c).bridge.epoch = c.bridge.epoch ∧
      (events.foldl Core.follow c).bridge.params = events.foldl reloadedBy c.bridge.params ∧
      (events.foldl Core.follow c).bridge.blockHeight = c.bridge.blockHeight := by
  induction events generalizing c with
  | nil => exact ⟨rfl, rfl, rfl⟩
  | cons event events ih =>
      obtain ⟨he, hp, hb⟩ := ih (c.follow event)
      rw [List.foldl_cons, List.foldl_cons, he, hp, hb]
      cases event <;> exact ⟨rfl, rfl, rfl⟩

omit [Externals] in
theorem bridge_refetch (c : Core) (obs : Observation) :
    (c.refetch obs).bridge.epoch = c.bridge.epoch ∧
      (c.refetch obs).bridge.params = c.bridge.params ∧
      (c.refetch obs).bridge.blockHeight = c.bridge.blockHeight := by
  unfold Core.refetch
  dsimp only
  split_ifs <;> exact ⟨rfl, rfl, rfl⟩

omit [Externals] in
/-- The end of a block changes the orchestrator's copy by the polled events only. -/
theorem bridge_finish (c : Core) (obs : Observation) :
    (c.finish obs).bridge.epoch = c.bridge.epoch ∧
      (c.finish obs).bridge.params = (c.polled obs).foldl reloadedBy c.bridge.params := by
  obtain ⟨he, hp, -⟩ := bridge_foldl_follow c (c.polled obs)
  exact ⟨he, hp⟩

/-- The orchestrator's clock when the phase handler starts. -/
theorem bridge_atHandler (cfg : RunConfig) (l : RunLoop) (obs : Observation) :
    (l.atHandler cfg obs).1.core.bridge.epoch = l.core.bridge.epoch ∧
      (l.atHandler cfg obs).1.core.bridge.params = l.core.bridge.params ∧
      (l.atHandler cfg obs).1.core.bridge.blockHeight = obs.block ∧
      (l.atHandler cfg obs).1.core.lastEventBlock = l.core.lastEventBlock := by
  rw [core_atHandler]
  split_ifs
  · obtain ⟨he, hp, hb⟩ := bridge_refetch (l.core.advance obs.block) obs
    exact ⟨he, hp, hb, rfl⟩
  · exact ⟨rfl, rfl, rfl, rfl⟩

/-- **Step.**  A step changes the epoch of the orchestrator's copy never, and its parameters
by the polled events only. -/
theorem bridge_step {cfg : RunConfig} {l l' : RunLoop} {i : Input}
    (h : step cfg l i = some l') :
    l'.core.bridge.epoch = l.core.bridge.epoch ∧
      l'.core.bridge.params
        = (l.polledEvents i).toList.flatten.foldl reloadedBy l.core.bridge.params := by
  cases step_core h with
  | gossip msg hcore => rw [hcore]; exact ⟨rfl, rfl⟩
  | old obs hold hcore =>
      have hnone : l.polledEvents (.block obs) = none :=
        if_neg fun hnew => UInt64.not_lt.mpr hold hnew.1
      rw [hcore, hnone]
      exact ⟨rfl, rfl⟩
  -- a block that is skipped does not reach the poll
  | skipped obs htrans hbehind hcore =>
      have hnone : l.polledEvents (.block obs) = none :=
        if_neg fun hnew => hnew.2 ⟨htrans, hbehind⟩
      rw [hcore, hnone]
      exact ⟨rfl, rfl⟩
  | quiet obs hnew hquiet hcore =>
      have hsome : l.polledEvents (.block obs) = some (l.core.polled obs) :=
        if_pos ⟨hnew, fun hskip => hquiet hskip.1⟩
      obtain ⟨he, hp⟩ := bridge_finish (l.core.advance obs.block) obs
      rw [hcore, hsome, he, hp, Option.toList_some, List.flatten_singleton]
      exact ⟨rfl, rfl⟩
  | handled obs r hruns hr hcore =>
      have hsome : l.polledEvents (.block obs) = some (l.core.polled obs) :=
        if_pos ⟨hruns.1, fun hskip => hruns.2.2 hskip.2⟩
      obtain ⟨commits, orders, found, hr⟩ := core_phaseHandler hr
      obtain ⟨he, hp⟩ := bridge_finish r.1.core obs
      obtain ⟨he', hp', -, hlast⟩ := l.bridge_atHandler cfg obs
      -- the handler leaves the cursor, so the poll asks for the same blocks
      have hpolled : r.1.core.polled obs = l.core.polled obs := by
        rw [hr, Core.polled, Core.polled, hlast]
      rw [hcore, hsome, he, hp, hpolled, hr, Option.toList_some, List.flatten_singleton]
      exact ⟨he', congrArg (fun p => (l.core.polled obs).foldl reloadedBy p) hp'⟩

/-- **Run.**  In a run the orchestrator's clock has its first epoch, and its first
parameters as reloaded by the polled events. -/
theorem bridge_of_run {cfg : RunConfig} {l l' : RunLoop} {is : List Input}
    (h : (system cfg).run l is = some l') :
    l'.core.bridge.epoch = l.core.bridge.epoch ∧
      l'.core.bridge.params
        = ((system cfg).trace polledEvents l is).flatten.foldl reloadedBy
            l.core.bridge.params := by
  constructor
  · exact (system cfg).run_invariant (C := fun _ _ => True)
      (I := fun s => s.core.bridge.epoch = l.core.bridge.epoch)
      (fun s i s' hs _ hstep => (bridge_step hstep).1.trans hs) rfl
      ((system cfg).follows_of_forall (fun _ _ => trivial) l) h
  · rw [List.foldl_flatten]
    refine (system cfg).foldl_trace polledEvents (V := fun s => s.core.bridge.params) ?_ h
    intro s i s' hstep
    rw [(bridge_step hstep).2]
    cases s.polledEvents i <;> simp

/-! ## One clock -/

/-- When the phase handler of a block starts, the orchestrator and the loop name the same
batch, phase and pool. -/
structure OneClock (cfg : RunConfig) (l : RunLoop) (obs : Observation) : Prop where
  batch : BatchStatePort.currentBatchId (l.atHandler cfg obs).1.node.orchestrator.batchState
    = l.newBatchId obs
  phase : BatchStatePort.currentPhase (l.atHandler cfg obs).1.node.orchestrator.batchState
    = l.newPhase obs
  pool : BatchStatePort.currentPoolId (l.atHandler cfg obs).1.node.orchestrator.batchState
      cfg.nftId
    = computePoolAssignment cfg.nftId (l.newBatchId obs)
      (max (l.atHandler cfg obs).1.numPools 1)

/-- The two pool counts lead to the same pool: a new one was just fetched, which both
copies take over, or the two copies agree about the NFT. -/
def PoolsMeet (cfg : RunConfig) (l : RunLoop) (obs : Observation) : Prop :=
  (l.newBatchId obs ≠ l.lastBatchId ∧ ∃ n ∈ obs.newNumPools, n ≠ l.numPools) ∨
    computePoolAssignment cfg.nftId (l.newBatchId obs) (max l.core.bridge.numPools 1)
      = computePoolAssignment cfg.nftId (l.newBatchId obs) (max l.numPools 1)

/-- The epoch and parameters `epoch` and `params` and the ones that the loop fetched last
put the block into the same batch and phase. -/
structure ClocksMeet (epoch : BatchEpoch) (params : BatchParams) (l : RunLoop)
    (obs : Observation) : Prop where
  batch : computeBatchId obs.block epoch params = computeBatchId obs.block l.epoch l.params
  phase : computePhase obs.block epoch params = computePhase obs.block l.epoch l.params

theorem pool_atHandler_iff {cfg : RunConfig} {l : RunLoop} {obs : Observation} :
    computePoolAssignment cfg.nftId (l.newBatchId obs)
        (max (l.atHandler cfg obs).1.core.bridge.numPools 1)
      = computePoolAssignment cfg.nftId (l.newBatchId obs)
        (max (l.atHandler cfg obs).1.core.numPools 1) ↔ l.PoolsMeet cfg obs := by
  unfold PoolsMeet
  rw [core_atHandler]
  split_ifs with hbatch
  · unfold Core.refetch
    dsimp only
    cases hn : obs.newNumPools with
    | none => simp [core, Core.advance]
    | some n =>
        by_cases h : n = l.numPools
        · simp [core, Core.advance, h]
        · simp [core, Core.advance, h, hbatch]
  · simp only [hbatch, false_and, false_or]
    rfl

/-- At a handler the orchestrator's clock is at the block, with its copy as before. -/
theorem oneClock_iff {cfg : RunConfig} {l : RunLoop} {obs : Observation} :
    l.OneClock cfg obs ↔
      ClocksMeet l.core.bridge.epoch l.core.bridge.params l obs ∧ l.PoolsMeet cfg obs := by
  obtain ⟨he, hp, hb, -⟩ := l.bridge_atHandler cfg obs
  have hbatch : (l.atHandler cfg obs).1.core.bridge.currentBatchId
      = computeBatchId obs.block l.core.bridge.epoch l.core.bridge.params := by
    rw [BatchStateBridge.currentBatchId, he, hp, hb]
  have hphase : (l.atHandler cfg obs).1.core.bridge.currentPhase
      = computePhase obs.block l.core.bridge.epoch l.core.bridge.params := by
    rw [BatchStateBridge.currentPhase, he, hp, hb]
  rw [← pool_atHandler_iff]
  constructor
  · rintro ⟨hb', hp', hpool⟩
    refine ⟨⟨hbatch.symm.trans hb', hphase.symm.trans hp'⟩, ?_⟩
    change computePoolAssignment _ (l.atHandler cfg obs).1.core.bridge.currentBatchId _ = _
      at hpool
    rw [hbatch, hbatch.symm.trans hb'] at hpool
    exact hpool
  · rintro ⟨⟨hb', hp'⟩, hpool⟩
    refine ⟨hbatch.trans hb', hphase.trans hp', ?_⟩
    change computePoolAssignment _ (l.atHandler cfg obs).1.core.bridge.currentBatchId _ = _
    rw [hbatch, hb']
    exact hpool

/-- **One clock.**  In a run from start-up, orchestrator and loop name the same batch,
phase and pool at the handler of a block exactly when start-up values and fetched values
meet there. -/
theorem one_clock_iff (cfg : RunConfig) (epoch : BatchEpoch) (params : BatchParams)
    (numPools height : UInt64) (tracker : EscrowTracker) (gasBalance : Option UInt64)
    {is : List Input} {l : RunLoop}
    (h : (system cfg).run (start cfg epoch params numPools height tracker gasBalance) is
      = some l) (obs : Observation) :
    l.OneClock cfg obs ↔
      ClocksMeet epoch
        (((system cfg).trace polledEvents
          (start cfg epoch params numPools height tracker gasBalance) is).flatten.foldl
            reloadedBy params) l obs ∧
        l.PoolsMeet cfg obs := by
  obtain ⟨he, hp⟩ := bridge_of_run h
  rw [oneClock_iff, he, hp]
  rfl


end

/-! ## A shorter COMMIT phase -/

section

attribute [local instance] sampleExternals

/-- At the first block of batch 7 the chain has parameters with a COMMIT of 3 blocks. -/
def shorterCommit : Input :=
  .block { silentBlock 110 with newParams := some ⟨10, 3, 3, 1, 3, 3⟩ }

/-- The loop after that block. -/
def shorterLoop : RunLoop :=
  ((system sampleConfig).run sampleLoop [shorterCommit]).getD sampleLoop

/-- As long as nothing was fetched, the clocks agree at the first block of batch 7. -/
theorem one_clock_at_start :
    sampleLoop.RunsHandler (silentBlock 110) ∧
      sampleLoop.OneClock sampleConfig (silentBlock 110) := by
  refine ⟨by decide +kernel, ?_⟩
  have hrun : (system sampleConfig).run sampleLoop [] = some sampleLoop := rfl
  exact (one_clock_iff sampleConfig ⟨100, 6⟩ ⟨10, 4, 3, 1, 2, 3⟩ 1 105 sampleTracker
    (some 10000000000)
    hrun (silentBlock 110)).mpr ⟨⟨rfl, rfl⟩, .inr rfl⟩

/-- At block 113 the loop runs the REVEAL handler, for which the orchestrator is still in
COMMIT. -/
theorem reveal_during_commit :
    ¬ ∀ (cfg : RunConfig) (epoch : BatchEpoch) (params : BatchParams)
      (numPools height : UInt64) (tracker : EscrowTracker) (gasBalance : Option UInt64)
      (is : List Input) (l : RunLoop),
      (system cfg).run (start cfg epoch params numPools height tracker gasBalance) is = some l →
      ∀ obs, l.RunsHandler obs → l.OneClock cfg obs := by
  intro h
  have hrun : (system sampleConfig).run sampleLoop [shorterCommit] = some shorterLoop :=
    System.run_eq_some_getD _ (by decide +kernel)
  have hphase := (h sampleConfig ⟨100, 6⟩ ⟨10, 4, 3, 1, 2, 3⟩ 1 105 sampleTracker
    (some 10000000000)
    [shorterCommit] shorterLoop hrun (silentBlock 113) (by decide +kernel)).phase
  revert hphase
  decide +kernel

end

end RunLoop
