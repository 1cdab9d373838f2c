/-
# The own commit quota

A batch has one COMMIT phase, at its first blocks.  The loop runs the handler of a phase only when
phase or batch have changed since the last block that it saw; so however many blocks it misses,
COMMIT runs at most once in a batch.  One COMMIT publishes at most `commits_per_batch` orders, and
everything that it queues is flushed before it returns.  With constant parameters, epoch and pool
count the node therefore keeps to the quota that its peers enforce (`commit_quota`).
-/
import DeadmktNode.OwnOrders
import DeadmktNode.PoolSubscription

/-! ## Published commitments -/

/-- A commitment on its way to a topic. -/
structure QueuedCommit where
  batchId : UInt64
  /-- the pool of the topic -/
  topic : UInt64
  poolId : UInt64
deriving DecidableEq, Repr

/-- The commitment that a command publishes. -/
def SwarmCommand.queuedCommit : SwarmCommand → Option QueuedCommit
  | .publish topic (.commitment batchId poolId _ _ _) => some ⟨batchId, topic, poolId⟩
  | _ => none

namespace RunLoop

/-- The commitments among some commands. -/
def queuedCommits (commands : List SwarmCommand) : List QueuedCommit :=
  commands.filterMap SwarmCommand.queuedCommit

theorem queuedCommits_append (cs cs' : List SwarmCommand) :
    queuedCommits (cs ++ cs') = queuedCommits cs ++ queuedCommits cs' := List.filterMap_append ..

theorem queuedCommits_poolChange (old new : UInt64) (canUnsubscribe canSubscribe : Bool) :
    queuedCommits (poolChange old new canUnsubscribe canSubscribe) = [] := by
  cases canUnsubscribe <;> cases canSubscribe <;> rfl

section

variable [Externals]

theorem queuedCommits_atHandler (cfg : RunConfig) (l : RunLoop) (obs : Observation) :
    queuedCommits (commandsOf (l.atHandler cfg obs).2) = [] := by
  rw [(l.atHandler_pool cfg obs).2]
  split_ifs
  · exact queuedCommits_poolChange ..
  · rfl

/-! ## The outbound queues -/

/-- The queues that wait to be flushed are empty, and the node publishes under its NFT. -/
structure Flushed (nftId : UInt64) (out : Outgoing) : Prop where
  nodeNftId : out.nodeNftId = nftId
  pendingCommits : out.pendingCommits = []
  pendingReveals : out.pendingReveals = []

variable {nftId : UInt64}

theorem Flushed.atHandler {l : RunLoop} (h : Flushed nftId l.outgoing) (cfg : RunConfig)
    (obs : Observation) : Flushed nftId (l.atHandler cfg obs).1.outgoing := by
  unfold RunLoop.atHandler
  split_ifs
  · obtain ⟨l₁, -, houtgoing, hboundary⟩ :=
      (l.arrive obs).exists_boundary_eq cfg obs (l.newBatchId obs)
    have h₁ : Flushed nftId l₁.outgoing := by
      rw [houtgoing, outgoing_arrive]
      exact h
    rw [hboundary, outgoing_updatePause]
    obtain ⟨p, hp⟩ := l₁.outgoing_reassignPool cfg obs (l.newBatchId obs)
    rw [hp]
    exact ⟨h₁.nodeNftId, h₁.pendingCommits, h₁.pendingReveals⟩
  · rw [outgoing_arrive]
    exact h

omit [Externals] in
theorem outgoing_enterFirstBatch (l : RunLoop) : l.enterFirstBatch.outgoing = l.outgoing := by
  unfold enterFirstBatch
  split_ifs
  · split <;> rfl
  · rfl

/-! ## The handlers -/

/-- The strategy gives at most `commits_per_batch` orders that count. -/
theorem length_strategyOrders_le {cfg : RunConfig} {l : RunLoop} {obs : Observation}
    {newBatchId : UInt64} {canCommit : Bool} {orders : Option (List ValidatedOrder)}
    (h : l.strategyOrders cfg obs newBatchId canCommit = some orders) :
    (orders.getD []).length ≤ l.params.commitsPerBatch.toNat := by
  unfold strategyOrders at h
  split_ifs at h
  · split at h
    · obtain ⟨validated, hvalidated, rfl⟩ := Option.map_eq_some_iff.mp h
      split_ifs
      · exact Nat.zero_le _
      · exact length_convertStrategyOrders_le hvalidated
    · obtain rfl := Option.some.inj h
      exact Nat.zero_le _
  · obtain rfl := Option.some.inj h
    exact Nat.zero_le _

/-- The messages that the channel takes. -/
def taken (msgs : List (UInt64 × GossipMessage)) (sent : ℕ → Bool) :
    List (UInt64 × GossipMessage) :=
  (msgs.zipIdx.filter fun p => sent p.2).map Prod.fst

/-- The commitment that a node publishes for an order. -/
def ownCommitment (o : LiveOrchestrator) (v : ValidatedOrder) : UInt64 × GossipMessage :=
  (o.poolId, .commitment o.batchId o.poolId (Sha256.toHash32 v.commitHash) o.nodeNftId
    (List.replicate 64 0))

/-- The reveal that a node publishes for an index. -/
def ownReveal (o : LiveOrchestrator) (idx : UInt32) : UInt64 × GossipMessage :=
  (o.poolId, GossipBridge.revealMessage (o.revealAt o.batchId o.poolId idx))

/-- COMMIT flushes what waited, with its own commits behind the commits. -/
theorem commitHandler_snd (n : LiveNode) (canCommit : Bool) (orders : Option (List ValidatedOrder))
    (sent : ℕ → Bool) :
    (n.commitHandler canCommit orders sent).2
      = taken (n.orchestrator.gossip.pendingCommits
          ++ (LiveNode.ordersToCommit canCommit orders).map (ownCommitment n.orchestrator)
          ++ n.orchestrator.gossip.pendingReveals) sent := by
  cases canCommit with
  | false =>
      rw [LiveNode.ordersToCommit, if_neg Bool.false_ne_true, List.map_nil, List.append_nil]
      rfl
  | true =>
      cases orders with
      | none =>
          rw [LiveNode.ordersToCommit, if_pos rfl, Option.getD_none, List.map_nil,
            List.append_nil]
          rfl
      | some orders =>
          simp only [LiveNode.commitHandler, LiveNode.flushGossip, Orchestrator.onCommitPhase,
            LiveNode.foldl_commitOrder, Bool.not_true, Bool.false_eq_true, if_false]
          rfl

/-- REVEAL flushes what waited, with its own reveals behind. -/
theorem revealHandler_snd (n : LiveNode) (response : Option (List UInt32)) (sent : ℕ → Bool) :
    (n.revealHandler response sent).2
      = taken (n.orchestrator.gossip.pendingCommits ++ (n.orchestrator.gossip.pendingReveals
          ++ (Orchestrator.revealIndices n.orchestrator.publishedCommits.length response).map
            (ownReveal n.orchestrator))) sent := by
  simp only [LiveNode.revealHandler, LiveNode.flushGossip, Orchestrator.onRevealPhase,
    LiveNode.foldl_revealOrder]
  rfl

omit [Externals] in
/-- No more commitments are queued than there are messages. -/
theorem length_queuedCommits_taken_le (msgs : List (UInt64 × GossipMessage)) (sent : ℕ → Bool) :
    (queuedCommits (commandsOf (publishAll (taken msgs sent)))).length ≤ msgs.length := by
  rw [commandsOf_publishAll]
  refine (List.length_filterMap_le _ _).trans ?_
  rw [taken, List.length_map, List.length_map, ← List.length_zipIdx (l := msgs)]
  exact List.length_filter_le _ _

omit [Externals] in
/-- A queued commitment is that of a message. -/
theorem exists_of_mem_queuedCommits_taken {msgs : List (UInt64 × GossipMessage)}
    {sent : ℕ → Bool} {c : QueuedCommit}
    (h : c ∈ queuedCommits (commandsOf (publishAll (taken msgs sent)))) :
    ∃ m ∈ msgs, (SwarmCommand.publish m.1 m.2).queuedCommit = some c := by
  rw [commandsOf_publishAll] at h
  obtain ⟨command, hcommand, hc⟩ := List.mem_filterMap.mp h
  obtain ⟨m, hm, rfl⟩ := List.mem_map.mp hcommand
  obtain ⟨p, hp, rfl⟩ := List.mem_map.mp hm
  exact ⟨p.1, List.fst_mem_of_mem_zipIdx (List.mem_of_mem_filter hp), hc⟩

/-- **COMMIT** queues at most `commits_per_batch` commitments, all for batch and pool of the
orchestrator's clock, and leaves nothing to be flushed. -/
theorem queuedCommits_commitPhase {cfg : RunConfig} {l : RunLoop} {obs : Observation}
    {newBatchId : UInt64} {r : RunLoop × List LoopOutput} (hflushed : Flushed nftId l.outgoing)
    (h : l.commitPhase cfg obs newBatchId = some r) :
    Flushed nftId r.1.outgoing ∧
      (queuedCommits (commandsOf r.2)).length ≤ l.core.params.commitsPerBatch.toNat ∧
      ∀ c ∈ queuedCommits (commandsOf r.2), c = ⟨l.core.bridge.currentBatchId,
        l.core.bridge.currentPoolId nftId, l.core.bridge.currentPoolId nftId⟩ := by
  unfold commitPhase at h
  dsimp only at h
  have hcore : ((l.drain obs.late).enterFirstBatch).core = l.core := by
    rw [core_enterFirstBatch, core_drain]
  have houtgoing : ((l.drain obs.late).enterFirstBatch).outgoing = l.outgoing := by
    rw [outgoing_enterFirstBatch, outgoing_drain]
  rw [← houtgoing] at hflushed
  rw [← hcore]
  generalize (l.drain obs.late).enterFirstBatch = l' at h hflushed
  generalize (l'.nodeState.state = .trading && !l'.tradingPaused : Bool) = canCommit at h
  obtain ⟨orders, horders, rfl⟩ := Option.map_eq_some_iff.mp h
  obtain rfl := hflushed.nodeNftId
  have hcommits : l'.node.orchestrator.gossip.pendingCommits = [] := hflushed.pendingCommits
  have hreveals : l'.node.orchestrator.gossip.pendingReveals = [] := hflushed.pendingReveals
  -- at most the limit of the batch, whatever the strategy answers
  have hlength : (LiveNode.ordersToCommit canCommit orders).length
      ≤ l'.core.params.commitsPerBatch.toNat := by
    unfold LiveNode.ordersToCommit
    split_ifs
    · exact length_strategyOrders_le horders
    · exact Nat.zero_le _
  refine ⟨⟨?_, rfl, rfl⟩, ?_⟩
  · obtain ⟨g, events, -, ho⟩ := l'.node.orchestrator_commitHandler canCommit orders obs.sent
    show (l'.node.commitHandler canCommit orders obs.sent).1.orchestrator.nodeNftId = _
    rw [ho]
    rfl
  · dsimp only
    rw [commitHandler_snd, hcommits, hreveals, List.nil_append, List.append_nil]
    constructor
    · refine (length_queuedCommits_taken_le _ obs.sent).trans ?_
      rw [List.length_map]
      exact hlength
    · intro c hc
      -- every commit carries batch and pool of the bridge
      obtain ⟨m, hm, hc⟩ := exists_of_mem_queuedCommits_taken hc
      obtain ⟨v, -, rfl⟩ := List.mem_map.mp hm
      exact (Option.some.inj hc).symm

/-- REVEAL queues no commitment. -/
theorem queuedCommits_revealPhase {l : RunLoop} (hflushed : Flushed nftId l.outgoing)
    (obs : Observation) :
    Flushed nftId (l.revealPhase obs).1.outgoing ∧
      queuedCommits (commandsOf (l.revealPhase obs).2) = [] := by
  rw [← l.outgoing_drain obs.late] at hflushed
  have hcommits : (l.drain obs.late).node.orchestrator.gossip.pendingCommits = [] :=
    hflushed.pendingCommits
  have hreveals : (l.drain obs.late).node.orchestrator.gossip.pendingReveals = [] :=
    hflushed.pendingReveals
  refine ⟨⟨?_, rfl, rfl⟩, ?_⟩
  · show ((l.drain obs.late).node.revealHandler _ obs.sent).1.orchestrator.nodeNftId = nftId
    rw [LiveNode.orchestrator_revealHandler]
    exact hflushed.nodeNftId
  · unfold revealPhase
    dsimp only
    rw [revealHandler_snd, hcommits, hreveals, List.nil_append, List.nil_append,
      List.eq_nil_iff_forall_not_mem]
    intro c hc
    obtain ⟨m, hm, hc⟩ := exists_of_mem_queuedCommits_taken hc
    obtain ⟨idx, -, rfl⟩ := List.mem_map.mp hm
    cases hc

/-- A phase handler queues commitments in COMMIT only, and flushes what it queues. -/
theorem queuedCommits_phaseHandler {cfg : RunConfig} {l : RunLoop} {obs : Observation}
    {newBatchId : UInt64} {newPhase : Phase} {r : RunLoop × List LoopOutput}
    (hflushed : Flushed nftId l.outgoing)
    (h : l.phaseHandler cfg obs newBatchId newPhase = some r) :
    Flushed nftId r.1.outgoing ∧
      (queuedCommits (commandsOf r.2)).length ≤ l.core.params.commitsPerBatch.toNat ∧
      ∀ c ∈ queuedCommits (commandsOf r.2), newPhase = .commit ∧ c = ⟨l.core.bridge.currentBatchId,
        l.core.bridge.currentPoolId nftId, l.core.bridge.currentPoolId nftId⟩ := by
  -- nothing is to be shown of a handler that queues no commitment
  have hnone : ∀ {q : List QueuedCommit} {P : QueuedCommit → Prop}, q = [] →
      q.length ≤ l.core.params.commitsPerBatch.toNat ∧ ∀ c ∈ q, P c := by
    rintro q P rfl
    exact ⟨Nat.zero_le _, fun c hc => absurd hc List.not_mem_nil⟩
  cases newPhase with
  | commit =>
      obtain ⟨hr, hle, hall⟩ := queuedCommits_commitPhase hflushed h
      exact ⟨hr, hle, fun c hc => ⟨rfl, hall c hc⟩⟩
  | reveal =>
      obtain rfl := Option.some.inj h
      obtain ⟨hr, hqueued⟩ := queuedCommits_revealPhase hflushed obs
      exact ⟨hr, hnone hqueued⟩
  | «match» =>
      obtain rfl := Option.some.inj h
      refine ⟨?_, hnone rfl⟩
      rw [outgoing_matchPhase]
      exact hflushed
  | swap =>
      obtain ⟨houtgoing, hcommands⟩ := outgoing_swapPhase h
      refine ⟨?_, hnone ?_⟩
      · rw [houtgoing]
        exact hflushed
      · rw [hcommands]
        rfl

end

section

variable [Externals]

/-! ## A constant pool count -/

/-- The input does not change the pool count. -/
def ConstantPools (numPools : UInt64) : Input → Prop
  | .gossip _ => True
  | .block obs => Keeps numPools obs.newNumPools ∧
      ∀ event ∈ obs.events.getD [], ∀ batchId newNumPools,
        event.1 = .poolAdjusted batchId newNumPools → newNumPools = numPools

section

variable {numPools : UInt64} {c : Core} (h : c.bridge.numPools = numPools)

include h

omit [Externals] in
theorem numPools_refetch {obs : Observation} (hobs : Keeps numPools obs.newNumPools) :
    (c.refetch obs).bridge.numPools = numPools := by
  unfold Core.refetch
  dsimp only
  split_ifs with hnew
  · cases hn : obs.newNumPools with
    | none => exact absurd (by rw [hn, Option.getD_none]) hnew
    | some n => exact hobs n hn
  · exact h

omit [Externals] in
theorem numPools_finish {obs : Observation} (hobs : ConstantPools numPools (.block obs)) :
    (c.finish obs).bridge.numPools = numPools := by
  refine List.foldlRecOn (motive := fun c : Core => c.bridge.numPools = numPools) (c.polled obs)
    Core.follow h ?_
  intro c' hc' event hevent
  obtain ⟨e, he, rfl⟩ := Core.mem_polled hevent
  cases hadjusted : e.1 with
  | poolAdjusted batchId newNumPools => exact hobs.2 e he batchId newNumPools hadjusted
  | _ => exact hc'

end

variable {epoch : BatchEpoch} {params : BatchParams} {numPools : UInt64} {cfg : RunConfig}

theorem numPools_atHandler_bridge {l : RunLoop} {obs : Observation}
    (h : l.core.bridge.numPools = numPools) (hobs : ConstantPools numPools (.block obs)) :
    (l.atHandler cfg obs).1.core.bridge.numPools = numPools := by
  rw [core_atHandler]
  split_ifs
  · exact numPools_refetch (c := l.core.advance obs.block) h hobs.1
  · exact h

theorem numPools_step {l l' : RunLoop} {i : Input} (h : l.core.bridge.numPools = numPools)
    (hi : ConstantPools numPools i) (hstep : step cfg l i = some l') :
    l'.core.bridge.numPools = numPools := by
  cases step_core hstep with
  | gossip msg hcore => rwa [hcore]
  | old obs hold hcore => rwa [hcore]
  | skipped obs htrans hbehind hcore =>
      rw [hcore]
      exact h
  | quiet obs hnew hquiet hcore =>
      rw [hcore]
      exact numPools_finish (c := l.core.advance obs.block) h hi
  | handled obs r hruns hr hcore =>
      obtain ⟨commits, orders, found, hcore'⟩ := core_phaseHandler hr
      rw [hcore]
      refine numPools_finish ?_ hi
      rw [hcore']
      exact numPools_atHandler_bridge h hi

/-! ## COMMIT runs once in a batch -/

/-- The last phase and batch are those of the last block. -/
structure OnClock (epoch : BatchEpoch) (params : BatchParams) (l : RunLoop) : Prop where
  phase : l.lastPhase = computePhase l.lastBlock epoch params
  batch : l.lastBatchId = computeBatchId l.lastBlock epoch params

/-- A handler does not run COMMIT in the batch of a block that was observed before. -/
theorem OnClock.batch_ne {l : RunLoop} {obs : Observation} (h : OnClock epoch params l)
    (haligned : l.core.Aligned epoch params) (hruns : l.RunsHandler obs)
    (hcommit : l.newPhase obs = .commit) {block : UInt64} (hblock : block ≤ l.lastBlock) :
    computeBatchId block epoch params ≠ l.newBatchId obs := by
  have hepoch : l.epoch = epoch := haligned.epoch_eq
  have hparams : l.params = params := haligned.params_eq
  obtain ⟨hnew, htrans, -⟩ := hruns
  unfold Transition at htrans
  unfold newPhase newBatchId at *
  rw [hepoch, hparams] at hcommit htrans ⊢
  intro hbatch
  obtain ⟨hlastBatch, hlastPhase⟩ :=
    commit_of_between hblock (UInt64.le_of_lt hnew) hbatch hcommit
  rcases htrans with hphase | hbatch'
  · exact hphase (by rw [h.phase, hlastPhase, hcommit])
  · exact hbatch' (by rw [h.batch, hlastBatch])

theorem OnClock.observed {l l' : RunLoop} {obs : Observation}
    (haligned : l.core.Aligned epoch params) (hblock : l'.lastBlock = obs.block)
    (hphase : l'.lastPhase = l.newPhase obs) (hbatch : l'.lastBatchId = l.newBatchId obs) :
    OnClock epoch params l' := by
  have hepoch : l.epoch = epoch := haligned.epoch_eq
  have hparams : l.params = params := haligned.params_eq
  refine ⟨?_, ?_⟩
  · rw [hphase, hblock, newPhase, hepoch, hparams]
  · rw [hbatch, hblock, newBatchId, hepoch, hparams]

/-! ## Steps and runs -/

/-- The commitments that were queued so far, and the state. -/
structure QuotaKept (cfg : RunConfig) (epoch : BatchEpoch) (params : BatchParams)
    (numPools : UInt64) (sent : List SwarmCommand) (l : RunLoop) : Prop where
  aligned : l.core.Aligned epoch params
  bridgePools : l.core.bridge.numPools = numPools
  flushed : Flushed cfg.nftId l.outgoing
  onClock : OnClock epoch params l
  /-- no batch has more than its quota -/
  quota : ∀ b, (queuedCommits sent).countP (fun c => c.batchId = b)
    ≤ params.commitsPerBatch.toNat
  /-- every commitment is in the pool of its batch -/
  pool : ∀ c ∈ queuedCommits sent,
    c.topic = computePoolAssignment cfg.nftId c.batchId (max numPools 1) ∧
      c.poolId = computePoolAssignment cfg.nftId c.batchId (max numPools 1)
  /-- its batch was observed -/
  past : ∀ c ∈ queuedCommits sent, ∃ block ≤ l.lastBlock,
    computeBatchId block epoch params = c.batchId

/-- A COMMIT adds to the commitments of its own batch, which had none. -/
theorem QuotaKept.count_append_le {sent : List SwarmCommand} {l : RunLoop}
    (h : QuotaKept cfg epoch params numPools sent l) {obs : Observation}
    (hruns : l.RunsHandler obs) {fresh : List QueuedCommit}
    (hlength : fresh.length ≤ params.commitsPerBatch.toNat)
    (hfresh : ∀ c ∈ fresh, l.newPhase obs = .commit ∧ c.batchId = l.newBatchId obs) (b : UInt64) :
    (queuedCommits sent ++ fresh).countP (fun c => c.batchId = b)
      ≤ params.commitsPerBatch.toNat := by
  rw [List.countP_append]
  by_cases hb : ∃ c ∈ fresh, c.batchId = b
  · obtain ⟨c, hc, rfl⟩ := hb
    obtain ⟨hcommit, hbatch⟩ := hfresh c hc
    have hnone : (queuedCommits sent).countP (fun c' => c'.batchId = c.batchId) = 0 := by
      rw [List.countP_eq_zero]
      intro c' hc'
      obtain ⟨block, hblock, hpast⟩ := h.past c' hc'
      rw [decide_eq_true_eq, hbatch, ← hpast]
      exact h.onClock.batch_ne h.aligned hruns hcommit hblock
    rw [hnone, Nat.zero_add]
    exact List.countP_le_length.trans hlength
  · have hnone : fresh.countP (fun c => c.batchId = b) = 0 := by
      rw [List.countP_eq_zero]
      intro c hc
      rw [decide_eq_true_eq]
      exact fun hcb => hb ⟨c, hc, hcb⟩
    rw [hnone, Nat.add_zero]
    exact h.quota b

/-- A block that queues nothing, but is observed. -/
theorem QuotaKept.moved {sent : List SwarmCommand} {l l' : RunLoop} {obs : Observation}
    (h : QuotaKept cfg epoch params numPools sent l) (haligned : l'.core.Aligned epoch params)
    (hbridge : l'.core.bridge.numPools = numPools) (houtgoing : l'.outgoing = l.outgoing)
    (hnew : l.lastBlock < obs.block) (hblock : l'.lastBlock = obs.block)
    (hphase : l'.lastPhase = l.newPhase obs) (hbatch : l'.lastBatchId = l.newBatchId obs) :
    QuotaKept cfg epoch params numPools sent l' := by
  refine ⟨haligned, hbridge, ?_, .observed h.aligned hblock hphase hbatch, h.quota, h.pool, ?_⟩
  · rw [houtgoing]
    exact h.flushed
  · intro c hc
    obtain ⟨block, hle, hpast⟩ := h.past c hc
    rw [hblock]
    exact ⟨block, UInt64.le_trans hle (UInt64.le_of_lt hnew), hpast⟩

/-- What the handler of a block queues: in COMMIT, up to the quota for batch and pool of the
block. -/
theorem QuotaKept.fresh {sent : List SwarmCommand} {l : RunLoop} {obs : Observation}
    {r : RunLoop × List LoopOutput} (h : QuotaKept cfg epoch params numPools sent l)
    (hclock : ConstantClock epoch params (.block obs))
    (hpools : ConstantPools numPools (.block obs))
    (hr : (l.atHandler cfg obs).1.phaseHandler cfg obs (l.newBatchId obs) (l.newPhase obs)
      = some r) :
    Flushed cfg.nftId r.1.outgoing ∧
      (queuedCommits (commandsOf r.2)).length ≤ params.commitsPerBatch.toNat ∧
      ∀ c ∈ queuedCommits (commandsOf r.2), l.newPhase obs = .commit ∧ c = ⟨l.newBatchId obs,
        computePoolAssignment cfg.nftId (l.newBatchId obs) (max numPools 1),
        computePoolAssignment cfg.nftId (l.newBatchId obs) (max numPools 1)⟩ := by
  obtain ⟨hhandler, hbatch⟩ := aligned_atHandler cfg h.aligned hclock
  have hqueued := queuedCommits_phaseHandler (h.flushed.atHandler cfg obs) hr
  have hparams : (l.atHandler cfg obs).1.core.params = params := hhandler.params_eq
  have hpool : (l.atHandler cfg obs).1.core.bridge.currentPoolId cfg.nftId
      = computePoolAssignment cfg.nftId (l.newBatchId obs) (max numPools 1) := by
    rw [BatchStateBridge.currentPoolId, hbatch, numPools_atHandler_bridge h.bridgePools hpools]
  rwa [hparams, hbatch, hpool] at hqueued

/-- A block that runs a handler. -/
theorem QuotaKept.handled {sent : List SwarmCommand} {l l' : RunLoop} {obs : Observation}
    {r : RunLoop × List LoopOutput} (h : QuotaKept cfg epoch params numPools sent l)
    (hclock : ConstantClock epoch params (.block obs))
    (hpools : ConstantPools numPools (.block obs)) (hruns : l.RunsHandler obs)
    (hr : (l.atHandler cfg obs).1.phaseHandler cfg obs (l.newBatchId obs) (l.newPhase obs)
      = some r)
    (haligned : l'.core.Aligned epoch params) (hbridge : l'.core.bridge.numPools = numPools)
    (houtgoing : l'.outgoing = r.1.outgoing) (hblock : l'.lastBlock = obs.block)
    (hphase : l'.lastPhase = l.newPhase obs) (hbatch : l'.lastBatchId = l.newBatchId obs)
    {cs : List SwarmCommand} (hcs : queuedCommits cs = queuedCommits (commandsOf r.2)) :
    QuotaKept cfg epoch params numPools (sent ++ cs) l' := by
  obtain ⟨hflushed, hlength, hfresh⟩ := h.fresh hclock hpools hr
  have hqueued : queuedCommits (sent ++ cs)
      = queuedCommits sent ++ queuedCommits (commandsOf r.2) := by
    rw [queuedCommits_append, hcs]
  refine ⟨haligned, hbridge, ?_, .observed h.aligned hblock hphase hbatch, ?_, ?_, ?_⟩
  · rw [houtgoing]
    exact hflushed
  · rw [hqueued]
    refine h.count_append_le hruns hlength fun c hc => ?_
    obtain ⟨hcommit, rfl⟩ := hfresh c hc
    exact ⟨hcommit, rfl⟩
  · rw [hqueued]
    intro c hc
    rcases List.mem_append.mp hc with hc | hc
    · exact h.pool c hc
    · obtain ⟨-, rfl⟩ := hfresh c hc
      exact ⟨rfl, rfl⟩
  · rw [hqueued, hblock]
    intro c hc
    rcases List.mem_append.mp hc with hc | hc
    · obtain ⟨block, hle, hpast⟩ := h.past c hc
      exact ⟨block, UInt64.le_trans hle (UInt64.le_of_lt hruns.1), hpast⟩
    · -- a fresh commitment is for the batch of the block itself
      obtain ⟨-, rfl⟩ := hfresh c hc
      refine ⟨obs.block, UInt64.le_refl _, ?_⟩
      rw [newBatchId, show l.epoch = epoch from h.aligned.epoch_eq,
        show l.params = params from h.aligned.params_eq]

/-- **Step.** -/
theorem QuotaKept.handle {sent : List SwarmCommand} {l : RunLoop} {i : Input}
    {r : RunLoop × List LoopOutput} (h : QuotaKept cfg epoch params numPools sent l)
    (hclock : ConstantClock epoch params i) (hpools : ConstantPools numPools i)
    (hr : l.handle cfg i = some r) :
    QuotaKept cfg epoch params numPools (sent ++ commandsOf r.2) r.1 := by
  have hstep : step cfg l i = some r.1 := Option.map_eq_some_iff.mpr ⟨r, hr, rfl⟩
  have haligned := h.aligned.step hclock hstep
  have hbridge := numPools_step h.bridgePools hpools hstep
  have hnil : commandsOf [] = [] := rfl
  cases handle_cases hr with
  | gossip msg =>
      rw [hnil, List.append_nil]
      refine ⟨haligned, hbridge, ?_, ⟨h.onClock.phase, h.onClock.batch⟩, h.quota, h.pool, h.past⟩
      rw [outgoing_processInboundGossip]
      exact h.flushed
  | old obs hold =>
      rw [hnil, List.append_nil]
      refine ⟨haligned, hbridge, ?_, ⟨h.onClock.phase, h.onClock.batch⟩, h.quota, h.pool, h.past⟩
      rw [outgoing_drain]
      exact h.flushed
  | skipped obs hnew htrans hbehind =>
      rw [hnil, List.append_nil]
      exact h.moved haligned hbridge (l.outgoing_arrive obs) hnew rfl rfl rfl
  | quiet obs hnew hquiet =>
      rw [commandsOf_finish, hnil, List.append_nil]
      refine h.moved haligned hbridge ?_ hnew rfl rfl rfl
      rw [outgoing_finish, outgoing_arrive]
  | handled obs r₀ hruns hr₀ =>
      refine h.handled hclock hpools hruns hr₀ haligned hbridge (outgoing_finish ..) rfl rfl rfl ?_
      rw [commandsOf_finish, commandsOf_append, queuedCommits_append, queuedCommits_atHandler,
        List.nil_append]

/-- **Commit quota.**  With constant epoch, parameters and pool count, in a run from start-up, for
any blocks and any answers of the strategy: of every batch the node queues at most
`commits_per_batch` commitments, all of them to the topic and for the pool of that batch. -/
theorem commit_quota (cfg : RunConfig) (epoch : BatchEpoch) (params : BatchParams)
    {numPools : UInt64} (hnum : 1 ≤ numPools) (height : UInt64) (tracker : EscrowTracker)
    (gasBalance : Option UInt64) {is : List Input} {l : RunLoop}
    (hconstant : ∀ i ∈ is, ConstantClock epoch params i ∧ ConstantPools numPools i)
    (hrun : (system cfg).run (start cfg epoch params numPools height tracker gasBalance) is
      = some l) :
    (∀ b, (queuedCommits (sentCommands cfg
        (start cfg epoch params numPools height tracker gasBalance) is)).countP
          (fun c => c.batchId = b) ≤ params.commitsPerBatch.toNat) ∧
      ∀ c ∈ queuedCommits (sentCommands cfg
          (start cfg epoch params numPools height tracker gasBalance) is),
        c.topic = computePoolAssignment cfg.nftId c.batchId numPools ∧
          c.poolId = computePoolAssignment cfg.nftId c.batchId numPools := by
  have hstart : QuotaKept cfg epoch params numPools []
      (start cfg epoch params numPools height tracker gasBalance) :=
    ⟨aligned_start cfg epoch params numPools height tracker gasBalance, rfl, ⟨rfl, rfl, rfl⟩,
      ⟨rfl, rfl⟩, fun _ => Nat.zero_le _, fun _ hc => absurd hc List.not_mem_nil,
      fun _ hc => absurd hc List.not_mem_nil⟩
  have hkept := sentCommands_history (I := QuotaKept cfg epoch params numPools)
    (C := fun _ i => ConstantClock epoch params i ∧ ConstantPools numPools i)
    (fun sent l i r hl hi hr => hl.handle hi.1 hi.2 hr) hstart
    ((system cfg).follows_of_forall hconstant _) hrun
  have hmax : max numPools 1 = numPools := by
    show (if numPools ≤ 1 then 1 else numPools) = numPools
    split_ifs with hle
    · exact UInt64.le_antisymm hnum hle
    · rfl
  refine ⟨hkept.quota, fun c hc => ?_⟩
  have hpool := hkept.pool c hc
  rwa [hmax] at hpool

end

/-! ## A commit in batch 7 -/

section

attribute [local instance] sampleExternals

/-- The sample node queues its one commitment of batch 7 in pool 0. -/
theorem one_commit_is_queued :
    queuedCommits (sentCommands sampleConfig sampleLoop [commitBlock]) = [⟨7, 0, 0⟩] ∧
      ∀ b, (queuedCommits (sentCommands sampleConfig sampleLoop [commitBlock])).countP
        (fun c => c.batchId = b) ≤ 3 := by
  refine ⟨by decide +kernel, ?_⟩
  refine (commit_quota sampleConfig ⟨100, 6⟩ ⟨10, 4, 3, 1, 2, 3⟩ (by decide) 105 sampleTracker
    (some 10000000000) ?_ run_committedLoop).1
  intro i hi
  refine ⟨constantClock_commitBlock i hi, ?_⟩
  obtain rfl := List.mem_singleton.mp hi
  refine ⟨fun n hn => ?_, fun event hevent => ?_⟩
  · cases hn
  · cases hevent

end

end RunLoop
