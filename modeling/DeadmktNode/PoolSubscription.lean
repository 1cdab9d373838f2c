/-
# The subscription to the pool

The gossip task holds the pool topics; the loop remembers in `my_pool` the pool that it asked for.
At a batch boundary it computes the pool of the batch and sends an unsubscribe and a subscribe to
the gossip task.  It takes the new pool for its own also when the channel is full, and a node that
skips ahead computes none.  As long as both commands of every pool change are taken, the node is
subscribed to `my_pool` and to nothing else (`subscribedPools_of_run`); as long as it also skips
ahead only to batches of the same pool, and orchestrator and loop count pools so that it is in the
same one, this is the pool of the batch (`subscribed_iff`).
-/
import DeadmktNode.LoopClock
import DeadmktNode.LoopOutputs
import Mathlib.Data.Finset.Insert
import Mathlib.Data.Finset.Erase

/-! ## Executing the commands -/

/-- Execute a command on the pools that the gossip task is subscribed to. -/
def SwarmCommand.execute (pools : Finset UInt64) : SwarmCommand → Finset UInt64
  | .publish _ _ => pools
  | .subscribePool p => insert p pools
  | .unsubscribePool p => pools.erase p

namespace RunLoop

/-- The pools after some commands. -/
def executed (pools : Finset UInt64) (commands : List SwarmCommand) : Finset UInt64 :=
  commands.foldl SwarmCommand.execute pools

/-- Commands one after another. -/
theorem executed_append (pools : Finset UInt64) (cs cs' : List SwarmCommand) :
    executed pools (cs ++ cs') = executed (executed pools cs) cs' := List.foldl_append

/-- Messages that are published leave the subscriptions alone. -/
theorem executed_publish (pools : Finset UInt64) (msgs : List (UInt64 × GossipMessage)) :
    executed pools (msgs.map fun p => .publish p.1 p.2) = pools := by
  induction msgs with
  | nil => rfl
  | cons p msgs ih => exact ih

/-- The commands of a pool change, of which the channel takes some. -/
def poolChange (old new : UInt64) (canUnsubscribe canSubscribe : Bool) : List SwarmCommand :=
  (if canUnsubscribe then [.unsubscribePool old] else [])
    ++ (if canSubscribe then [.subscribePool new] else [])

/-- What a pool change leaves is one pool if both commands are taken, the new one, or neither, the
old one. -/
theorem executed_poolChange_iff {old new p : UInt64} (hne : new ≠ old)
    {canUnsubscribe canSubscribe : Bool} :
    executed {old} (poolChange old new canUnsubscribe canSubscribe) = {p} ↔
      (canUnsubscribe = true ∧ canSubscribe = true ∧ new = p) ∨
        (canUnsubscribe = false ∧ canSubscribe = false ∧ old = p) := by
  cases canUnsubscribe with
  | false =>
      cases canSubscribe with
      | false =>
          show ({old} : Finset UInt64) = {p} ↔ _
          simp
      | true =>
          refine iff_of_false ?_ (by simp)
          intro h
          -- both pools are there
          have hnew : new ∈ ({p} : Finset UInt64) := by
            rw [← h]
            exact Finset.mem_insert_self new {old}
          have hold : old ∈ ({p} : Finset UInt64) := by
            rw [← h]
            exact Finset.mem_insert_of_mem (Finset.mem_singleton_self old)
          exact hne ((Finset.mem_singleton.mp hnew).trans (Finset.mem_singleton.mp hold).symm)
  | true =>
      have hleft : ({old} : Finset UInt64).erase old = ∅ := Finset.erase_singleton old
      cases canSubscribe with
      | false =>
          show ({old} : Finset UInt64).erase old = {p} ↔ _
          rw [hleft]
          exact iff_of_false (Finset.singleton_ne_empty p).symm (by simp)
      | true =>
          show insert new (({old} : Finset UInt64).erase old) = {p} ↔ _
          rw [hleft]
          show ({new} : Finset UInt64) = {p} ↔ _
          simp

section

variable [Externals]

/-! ## The believed pool -/

/-- A block that arrives keeps the pool, -/
theorem myPool_arrive (l : RunLoop) (obs : Observation) : (l.arrive obs).myPool = l.myPool :=
  congrArg Outgoing.myPool (l.outgoing_arrive obs)

/-- the handlers keep it, -/
theorem myPool_phaseHandler {cfg : RunConfig} {l : RunLoop} {obs : Observation}
    {newBatchId : UInt64} {newPhase : Phase} {r : RunLoop × List LoopOutput}
    (h : l.phaseHandler cfg obs newBatchId newPhase = some r) : r.1.myPool = l.myPool := by
  cases newPhase with
  | commit =>
      obtain ⟨orders, -, rfl⟩ := Option.map_eq_some_iff.mp h
      show ((l.drain obs.late).enterFirstBatch).myPool = _
      unfold enterFirstBatch
      split_ifs
      · split <;> rfl
      · rfl
  | reveal =>
      obtain rfl := Option.some.inj h
      rfl
  | «match» =>
      obtain rfl := Option.some.inj h
      exact congrArg Outgoing.myPool (l.outgoing_matchPhase obs)
  | swap => exact congrArg Outgoing.myPool (outgoing_swapPhase h).1

/-- the end of the block keeps it, -/
theorem myPool_finish (obs : Observation) (newPhase : Phase) (newBatchId : UInt64)
    (r : RunLoop × List LoopOutput) :
    (finish obs newPhase newBatchId r).1.myPool = r.1.myPool :=
  congrArg Outgoing.myPool (outgoing_finish obs newPhase newBatchId r)

omit [Externals] in
/-- and so does a pause. -/
theorem myPool_updatePause (l : RunLoop) (newBatchId : UInt64) :
    (l.updatePause newBatchId).myPool = l.myPool :=
  congrArg Outgoing.myPool (l.outgoing_updatePause newBatchId)

/-! ## A batch boundary -/

/-- The pool that a batch boundary moves to. -/
def boundaryPool (cfg : RunConfig) (l : RunLoop) (obs : Observation) : UInt64 :=
  computePoolAssignment cfg.nftId (l.newBatchId obs)
    (max ((l.core.advance obs.block).refetch obs).bridge.numPools 1)

/-- Does the block begin a new batch for a loop that is not behind, in another pool? -/
def ChangesPool (cfg : RunConfig) (l : RunLoop) (obs : Observation) : Prop :=
  l.newBatchId obs ≠ l.lastBatchId ∧ l.boundaryPool cfg obs ≠ l.myPool

instance (cfg : RunConfig) (l : RunLoop) (obs : Observation) :
    Decidable (l.ChangesPool cfg obs) := inferInstanceAs (Decidable (_ ∧ _))

/-- **Boundary.**  The believed pool and the commands when the phase handler starts. -/
theorem atHandler_pool (cfg : RunConfig) (l : RunLoop) (obs : Observation) :
    (l.atHandler cfg obs).1.myPool
        = (if l.ChangesPool cfg obs then l.boundaryPool cfg obs else l.myPool) ∧
      commandsOf (l.atHandler cfg obs).2
        = if l.ChangesPool cfg obs then
            poolChange l.myPool (l.boundaryPool cfg obs) obs.canUnsubscribe obs.canSubscribe
          else [] := by
  unfold atHandler
  by_cases hbatch : l.newBatchId obs ≠ l.lastBatchId
  · rw [if_pos hbatch]
    obtain ⟨l₁, hcore, houtgoing, hboundary⟩ :=
      (l.arrive obs).exists_boundary_eq cfg obs (l.newBatchId obs)
    have hpool : l₁.myPool = l.myPool :=
      congrArg Outgoing.myPool (houtgoing.trans (l.outgoing_arrive obs))
    rw [core_arrive] at hcore
    have hnew : computePoolAssignment cfg.nftId (l.newBatchId obs)
        (max (BatchStatePort.numPools l₁.node.orchestrator.batchState) 1)
          = l.boundaryPool cfg obs := by
      rw [boundaryPool, ← hcore]
      rfl
    rw [hboundary, myPool_updatePause, reassignPool]
    dsimp only
    rw [hnew, hpool]
    -- commands go out only where the pool is another one
    by_cases hpoolNe : l.boundaryPool cfg obs ≠ l.myPool
    · have hchanges : l.ChangesPool cfg obs := ⟨hbatch, hpoolNe⟩
      rw [if_pos hpoolNe, if_pos hchanges, if_pos hchanges]
      refine ⟨rfl, ?_⟩
      cases obs.canUnsubscribe <;> cases obs.canSubscribe <;> rfl
    · have hstays : ¬ l.ChangesPool cfg obs := fun h => hpoolNe h.2
      rw [if_neg hpoolNe, if_neg hstays, if_neg hstays]
      exact ⟨hpool, rfl⟩
  · have hstays : ¬ l.ChangesPool cfg obs := fun h => hbatch h.1
    rw [if_neg hbatch, if_neg hstays, if_neg hstays]
    exact ⟨l.myPool_arrive obs, rfl⟩

/-- The channel takes both commands of a pool change. -/
def Moves (cfg : RunConfig) (l : RunLoop) (obs : Observation) : Prop :=
  l.ChangesPool cfg obs → obs.canUnsubscribe = true ∧ obs.canSubscribe = true

instance (cfg : RunConfig) (l : RunLoop) (obs : Observation) : Decidable (l.Moves cfg obs) :=
  inferInstanceAs (Decidable (_ → _))

/-- A boundary ends in the believed pool exactly if the channel takes its commands. -/
theorem executed_atHandler_iff {cfg : RunConfig} {l : RunLoop} {obs : Observation} :
    executed {l.myPool} (commandsOf (l.atHandler cfg obs).2) = {(l.atHandler cfg obs).1.myPool}
      ↔ l.Moves cfg obs := by
  obtain ⟨hpool, hcommands⟩ := l.atHandler_pool cfg obs
  rw [hpool, hcommands]
  by_cases hchanges : l.ChangesPool cfg obs
  · rw [if_pos hchanges, if_pos hchanges, executed_poolChange_iff hchanges.2]
    constructor
    · rintro (⟨hun, hsub, -⟩ | ⟨-, -, hsame⟩)
      · exact fun _ => ⟨hun, hsub⟩
      · exact absurd hsame.symm hchanges.2
    · intro h
      exact .inl ⟨(h hchanges).1, (h hchanges).2, rfl⟩
  · rw [if_neg hchanges, if_neg hchanges]
    exact iff_of_true rfl fun h => absurd h hchanges

/-! ## Runs -/

/-- The pools that the node is subscribed to after a run: the commands that were sent, executed
from the initial subscription on. -/
def subscribedPools (cfg : RunConfig) (l : RunLoop) (is : List Input) : Finset UInt64 :=
  executed {l.myPool} (sentCommands cfg l is)

/-- A block that runs a handler moves the subscription. -/
def MovesInput (cfg : RunConfig) (l : RunLoop) : Input → Prop
  | .gossip _ => True
  | .block obs => l.RunsHandler obs → l.Moves cfg obs

instance (cfg : RunConfig) (l : RunLoop) : (i : Input) → Decidable (l.MovesInput cfg i)
  | .gossip _ => inferInstanceAs (Decidable True)
  | .block _ => inferInstanceAs (Decidable (_ → _))

/-- **Step.**  The commands of an input take the subscription to the believed pool. -/
theorem executed_handle {cfg : RunConfig} {l : RunLoop} {i : Input} {r : RunLoop × List LoopOutput}
    (hmoves : l.MovesInput cfg i) (h : l.handle cfg i = some r) :
    executed {l.myPool} (commandsOf r.2) = {r.1.myPool} := by
  cases handle_cases h with
  | gossip msg => rfl
  | old obs hold => rfl
  | skipped obs hnew htrans hbehind =>
      show ({l.myPool} : Finset UInt64) = {(l.arrive obs).myPool}
      rw [myPool_arrive]
  | quiet obs hnew hquiet =>
      rw [commandsOf_finish, myPool_finish, myPool_arrive]
      rfl
  | handled obs r₀ hruns hr₀ =>
      obtain ⟨msgs, hmsgs⟩ := commandsOf_phaseHandler hr₀
      rw [commandsOf_finish, myPool_finish, commandsOf_append, executed_append, hmsgs,
        executed_publish, myPool_phaseHandler hr₀]
      exact executed_atHandler_iff.mpr (hmoves hruns)

/-- **Run.**  The node is subscribed to the pool that it believes in. -/
theorem subscribedPools_of_run {cfg : RunConfig} {l l' : RunLoop} {is : List Input}
    (hmoves : (system cfg).Follows (MovesInput cfg) l is) (h : (system cfg).run l is = some l') :
    subscribedPools cfg l is = {l'.myPool} := by
  refine sentCommands_history (C := MovesInput cfg)
    (I := fun sent s => executed {l.myPool} sent = {s.myPool}) ?_ rfl hmoves h
  intro sent s i r hs hi hr
  rw [executed_append, hs]
  exact executed_handle hi hr

/-! ## The pool of the batch -/

/-- The pools that the node is subscribed to when the phase handler starts. -/
def poolsAtHandler (cfg : RunConfig) (pools : Finset UInt64) (l : RunLoop) (obs : Observation) :
    Finset UInt64 :=
  executed pools (commandsOf (l.atHandler cfg obs).2)

/-- The loop's pool count when the phase handler starts. -/
def numPoolsAt (l : RunLoop) (obs : Observation) : UInt64 :=
  if l.newBatchId obs ≠ l.lastBatchId then obs.newNumPools.getD l.numPools else l.numPools

/-- The number of pools when the handler runs. -/
theorem numPools_atHandler (cfg : RunConfig) (l : RunLoop) (obs : Observation) :
    (l.atHandler cfg obs).1.numPools = l.numPoolsAt obs := by
  have hcore := congrArg Core.numPools (l.core_atHandler cfg obs)
  unfold numPoolsAt
  split_ifs at hcore ⊢ with hbatch
  · exact hcore
  · exact hcore

/-- The pool of the NFT in the batch of the block. -/
def assignedPool (cfg : RunConfig) (l : RunLoop) (obs : Observation) : UInt64 :=
  computePoolAssignment cfg.nftId (l.newBatchId obs) (max (l.numPoolsAt obs) 1)

/-- A block that changes the pool moves to the pool of the batch, with both commands; or it stays
in it, since the channel takes neither command.  At any other block the loop believes in the pool
of the batch. -/
def KeepsPool (cfg : RunConfig) (l : RunLoop) (obs : Observation) : Prop :=
  if l.ChangesPool cfg obs then
    (obs.canUnsubscribe = true ∧ obs.canSubscribe = true ∧
        l.boundaryPool cfg obs = l.assignedPool cfg obs) ∨
      (obs.canUnsubscribe = false ∧ obs.canSubscribe = false ∧
        l.myPool = l.assignedPool cfg obs)
  else l.myPool = l.assignedPool cfg obs

instance (cfg : RunConfig) (l : RunLoop) (obs : Observation) :
    Decidable (l.KeepsPool cfg obs) :=
  inferInstanceAs (Decidable (if l.ChangesPool cfg obs then _ ∨ _ else _))

/-- **Exactness at a handler.** -/
theorem poolsAtHandler_iff {cfg : RunConfig} {l : RunLoop} {obs : Observation} :
    poolsAtHandler cfg {l.myPool} l obs = {l.assignedPool cfg obs} ↔ l.KeepsPool cfg obs := by
  rw [poolsAtHandler, (l.atHandler_pool cfg obs).2, KeepsPool]
  by_cases hchanges : l.ChangesPool cfg obs
  · rw [if_pos hchanges, if_pos hchanges]
    exact executed_poolChange_iff hchanges.2
  · rw [if_neg hchanges, if_neg hchanges]
    exact Finset.singleton_inj

/-! ## Staying in the pool -/

/-- The node believes in the pool of the last batch that it saw. -/
def AtHome (cfg : RunConfig) (l : RunLoop) : Prop :=
  l.myPool = computePoolAssignment cfg.nftId l.lastBatchId (max l.numPools 1)

/-- At the block of a handler that begins a batch, orchestrator and loop count pools so that the
NFT is in the same one, and the channel takes both commands of a move.  At a block at which the
loop skips ahead, the NFT is in the same pool as in the last batch. -/
def StaysInPool (cfg : RunConfig) (l : RunLoop) : Input → Prop
  | .gossip _ => True
  | .block obs =>
      (l.RunsHandler obs → l.newBatchId obs ≠ l.lastBatchId →
        l.PoolsMeet cfg obs ∧ l.Moves cfg obs) ∧
      (l.lastBlock < obs.block ∧ l.Transition obs ∧ l.Behind obs →
        computePoolAssignment cfg.nftId (l.newBatchId obs) (max l.numPools 1)
          = computePoolAssignment cfg.nftId l.lastBatchId (max l.numPools 1))

/-- The block is of the batch that the node is in; or it begins a batch as it should; or it begins
one, and the channel takes neither command of a move out of the pool of the batch. -/
def EntersPool (cfg : RunConfig) (l : RunLoop) (obs : Observation) : Prop :=
  l.newBatchId obs = l.lastBatchId ∨
    (l.PoolsMeet cfg obs ∧ l.Moves cfg obs) ∨
    (l.ChangesPool cfg obs ∧ obs.canUnsubscribe = false ∧ obs.canSubscribe = false ∧
      computePoolAssignment cfg.nftId l.lastBatchId (max l.numPools 1) = l.assignedPool cfg obs)

instance (cfg : RunConfig) (l : RunLoop) (obs : Observation) : Decidable (l.PoolsMeet cfg obs) :=
  inferInstanceAs (Decidable (_ ∨ _))

instance (cfg : RunConfig) (l : RunLoop) : (i : Input) → Decidable (l.StaysInPool cfg i)
  | .gossip _ => inferInstanceAs (Decidable True)
  | .block _ => inferInstanceAs (Decidable ((_ → _ → _) ∧ (_ → _)))

instance (cfg : RunConfig) (l : RunLoop) (obs : Observation) : Decidable (l.EntersPool cfg obs) :=
  inferInstanceAs (Decidable (_ ∨ _ ∨ _))

section

variable {cfg : RunConfig} {l : RunLoop} {obs : Observation}

/-- Inside a batch the pool of the block is that of the last batch. -/
theorem assignedPool_of_same (hbatch : l.newBatchId obs = l.lastBatchId) :
    l.assignedPool cfg obs
      = computePoolAssignment cfg.nftId l.lastBatchId (max l.numPools 1) := by
  rw [assignedPool, numPoolsAt, if_neg (not_not.mpr hbatch), hbatch]

/-- A boundary moves to the pool of the batch exactly if the two counts meet. -/
theorem boundaryPool_eq_iff (hbatch : l.newBatchId obs ≠ l.lastBatchId) :
    l.boundaryPool cfg obs = l.assignedPool cfg obs ↔ l.PoolsMeet cfg obs := by
  have hcount : l.numPoolsAt obs = ((l.core.advance obs.block).refetch obs).numPools := by
    rw [numPoolsAt, if_pos hbatch]
    rfl
  rw [← pool_atHandler_iff, core_atHandler, if_pos hbatch, boundaryPool, assignedPool, hcount]

/-- At home, keeping the pool is entering none. -/
theorem AtHome.keepsPool_iff (h : l.AtHome cfg) : l.KeepsPool cfg obs ↔ l.EntersPool cfg obs := by
  unfold KeepsPool EntersPool
  by_cases hbatch : l.newBatchId obs = l.lastBatchId
  · have hstays : ¬ l.ChangesPool cfg obs := fun hchanges => hchanges.1 hbatch
    rw [if_neg hstays, assignedPool_of_same hbatch]
    exact iff_of_true h (.inl hbatch)
  · rw [← boundaryPool_eq_iff hbatch, ← h, or_iff_right hbatch]
    split_ifs with hchanges
    · constructor
      · rintro (⟨hun, hsub, hpool⟩ | ⟨hun, hsub, hpool⟩)
        · exact .inl ⟨hpool, fun _ => ⟨hun, hsub⟩⟩
        · exact .inr ⟨hchanges, hun, hsub, hpool⟩
      · rintro (⟨hpool, hmoves⟩ | ⟨-, hun, hsub, hpool⟩)
        · exact .inl ⟨(hmoves hchanges).1, (hmoves hchanges).2, hpool⟩
        · exact .inr ⟨hun, hsub, hpool⟩
    · -- the boundary computes the pool that the node is in
      have hsame : l.boundaryPool cfg obs = l.myPool :=
        not_not.mp fun hne => hchanges ⟨hbatch, hne⟩
      rw [hsame]
      constructor
      · intro hpool
        exact .inl ⟨hpool, fun hc => absurd hc hchanges⟩
      · rintro (⟨hpool, -⟩ | ⟨hc, -⟩)
        · exact hpool
        · exact absurd hc hchanges

/-- The end of a block leaves the loop's pool count alone. -/
theorem loopNumPools_finish (newPhase : Phase) (newBatchId : UInt64)
    (r : RunLoop × List LoopOutput) :
    (finish obs newPhase newBatchId r).1.numPools = r.1.numPools := by
  have hfollow : ∀ (c : Core) (event : ChainEvent), (c.follow event).numPools = c.numPools := by
    intro c event
    cases event <;> rfl
  have hcore := congrArg Core.numPools (core_finish obs newPhase newBatchId r)
  exact hcore.trans (foldl_preserves (V := Core.numPools) hfollow (r.1.core.polled obs) r.1.core)

/-- A block that stays in the pool moves the channel as it should. -/
theorem StaysInPool.movesInput {i : Input} (h : l.StaysInPool cfg i) : l.MovesInput cfg i := by
  cases i with
  | gossip msg => trivial
  | block obs => exact fun hruns hchanges => (h.1 hruns hchanges.1).2 hchanges

/-- A handler whose block stays in the pool enters it. -/
theorem StaysInPool.entersPool (h : l.StaysInPool cfg (.block obs)) (hruns : l.RunsHandler obs) :
    l.EntersPool cfg obs := by
  by_cases hbatch : l.newBatchId obs = l.lastBatchId
  · exact .inl hbatch
  · exact .inr (.inl (h.1 hruns hbatch))

/-- **Step.**  An input that stays in the pool keeps the node at home. -/
theorem AtHome.handle {i : Input} {r : RunLoop × List LoopOutput} (hhome : l.AtHome cfg)
    (hstays : l.StaysInPool cfg i) (h : l.handle cfg i = some r) : r.1.AtHome cfg := by
  have hcount : ∀ obs, (l.arrive obs).numPools = l.numPools := fun obs =>
    congrArg Core.numPools (l.core_arrive obs)
  cases handle_cases h with
  | gossip msg => exact hhome
  | old obs hold => exact hhome
  | skipped obs hnew htrans hbehind =>
      show (l.arrive obs).myPool
        = computePoolAssignment cfg.nftId (l.newBatchId obs) (max (l.arrive obs).numPools 1)
      rw [myPool_arrive, hcount, hstays.2 ⟨hnew, htrans, hbehind⟩]
      exact hhome
  | quiet obs hnew hquiet =>
      -- no handler runs, so the batch is the same
      have hbatch : l.newBatchId obs = l.lastBatchId := not_not.mp fun hne => hquiet (.inr hne)
      unfold AtHome
      rw [myPool_finish, loopNumPools_finish, myPool_arrive, hcount]
      show l.myPool = computePoolAssignment cfg.nftId (l.newBatchId obs) _
      rw [hbatch]
      exact hhome
  | handled obs r₀ hruns hr₀ =>
      have hpools : r₀.1.numPools = l.numPoolsAt obs := by
        obtain ⟨commits, orders, found, hcore⟩ := core_phaseHandler hr₀
        exact (congrArg Core.numPools hcore).trans (l.numPools_atHandler cfg obs)
      unfold AtHome
      rw [myPool_finish, loopNumPools_finish, myPool_phaseHandler hr₀, hpools]
      show (l.atHandler cfg obs).1.myPool = l.assignedPool cfg obs
      rw [(l.atHandler_pool cfg obs).1]
      -- the pool is computed again at a boundary only
      by_cases hbatch : l.newBatchId obs = l.lastBatchId
      · rw [if_neg fun hchanges => hchanges.1 hbatch, assignedPool_of_same hbatch]
        exact hhome
      · rw [← (boundaryPool_eq_iff hbatch).mpr (hstays.1 hruns hbatch).1]
        split_ifs with hchanges
        · rfl
        · exact (not_not.mp fun hne => hchanges ⟨hbatch, hne⟩).symm

end

/-- The loop starts at home. -/
theorem atHome_start (cfg : RunConfig) (epoch : BatchEpoch) (params : BatchParams)
    (numPools height : UInt64) (tracker : EscrowTracker) (gasBalance : Option UInt64) :
    (start cfg epoch params numPools height tracker gasBalance).AtHome cfg := rfl

/-- **Subscription to the pool.**  After a run from start-up whose inputs all stay in the pool:
when the next handler runs, the node is subscribed to the pool of its batch, and to no other,
exactly if its block enters the pool, as one that stays in it does. -/
theorem subscribed_iff (cfg : RunConfig) (epoch : BatchEpoch) (params : BatchParams)
    (numPools height : UInt64) (tracker : EscrowTracker) (gasBalance : Option UInt64)
    {is : List Input} {l : RunLoop}
    (hrun : (system cfg).run (start cfg epoch params numPools height tracker gasBalance) is
      = some l)
    (hstays : (system cfg).Follows (StaysInPool cfg)
      (start cfg epoch params numPools height tracker gasBalance) is)
    (obs : Observation) :
    poolsAtHandler cfg
        (subscribedPools cfg (start cfg epoch params numPools height tracker gasBalance) is) l obs
      = {computePoolAssignment cfg.nftId (l.newBatchId obs)
          (max (l.atHandler cfg obs).1.numPools 1)} ↔ l.EntersPool cfg obs := by
  have hmoves := (system cfg).follows_of_invariant (I := fun _ => True)
    (fun _ _ _ _ _ _ => trivial) (fun _ _ _ hi => StaysInPool.movesInput hi) trivial hstays
  have hhome : l.AtHome cfg := by
    refine (system cfg).run_invariant (C := StaysInPool cfg) (I := AtHome cfg) ?_
      (atHome_start ..) hstays hrun
    intro s i s' hs hi hs'
    obtain ⟨r, hr, rfl⟩ := Option.map_eq_some_iff.mp hs'
    exact hs.handle hi hr
  rw [subscribedPools_of_run hmoves hrun, numPools_atHandler, ← hhome.keepsPool_iff]
  exact poolsAtHandler_iff

end

/-! ## A jump over three batches -/

section

attribute [local instance] sampleExternals

/-- The sample node in a network of three pools; in batch 6 its pool is 1. -/
def threePools : RunLoop :=
  start sampleConfig ⟨100, 6⟩ ⟨10, 4, 3, 1, 2, 3⟩ 3 105 sampleTracker (some 10000000000)

/-- Batch 7 begins, and the node moves to pool 2. -/
def nextBatch : List Input := [.block (silentBlock 110)]

/-- The loop in batch 7. -/
def movedLoop : RunLoop := ((system sampleConfig).run threePools nextBatch).getD threePools

/-- In REVEAL of batch 7 the node is subscribed to pool 2. -/
theorem subscribed_in_next_batch :
    movedLoop.RunsHandler (silentBlock 114) ∧
      poolsAtHandler sampleConfig (subscribedPools sampleConfig threePools nextBatch) movedLoop
        (silentBlock 114) = {2} := by
  have hruns : movedLoop.RunsHandler (silentBlock 114) := by decide +kernel
  refine ⟨hruns, ?_⟩
  have hrun : (system sampleConfig).run threePools nextBatch = some movedLoop :=
    System.run_eq_some_getD _ (by decide +kernel)
  have hstays : (system sampleConfig).Follows (StaysInPool sampleConfig) threePools nextBatch := by
    decide +kernel
  have hpools := (subscribed_iff sampleConfig ⟨100, 6⟩ ⟨10, 4, 3, 1, 2, 3⟩ 3 105 sampleTracker
    (some 10000000000) hrun hstays (silentBlock 114)).mpr
    (StaysInPool.entersPool (by decide +kernel) hruns)
  refine hpools.trans ?_
  decide +kernel

/-- The loop after a block of batch 10, at which it skips ahead. -/
def skippedLoop : RunLoop :=
  ((system sampleConfig).run threePools [.block (silentBlock 140)]).getD threePools

/-- In batch 10 the pool of the node is 0; its REVEAL handler runs while it is still subscribed to
pool 1. -/
theorem reveal_in_another_pool :
    ¬ ∀ (cfg : RunConfig) (epoch : BatchEpoch) (params : BatchParams)
      (numPools height : UInt64) (tracker : EscrowTracker) (gasBalance : Option UInt64)
      (is : List Input) (l : RunLoop),
      (system cfg).run (start cfg epoch params numPools height tracker gasBalance) is = some l →
      ∀ obs, l.RunsHandler obs → l.newPhase obs ≠ .swap →
        poolsAtHandler cfg
            (subscribedPools cfg
              (start cfg epoch params numPools height tracker gasBalance) is) l obs
          = {computePoolAssignment cfg.nftId (l.newBatchId obs)
              (max (l.atHandler cfg obs).1.numPools 1)} := by
  intro h
  have hrun : (system sampleConfig).run threePools [.block (silentBlock 140)] = some skippedLoop :=
    System.run_eq_some_getD _ (by decide +kernel)
  have hpools := h sampleConfig ⟨100, 6⟩ ⟨10, 4, 3, 1, 2, 3⟩ 3 105 sampleTracker
    (some 10000000000) _ skippedLoop hrun (silentBlock 144) (by decide +kernel) (by decide +kernel)
  revert hpools
  decide +kernel

end

end RunLoop
