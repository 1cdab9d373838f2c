/-
# The own orders of a batch

COMMIT keeps the orders that it commits, for REVEAL to publish and for MATCH to feed to
the engine.  Only the next COMMIT clears them.  With a constant clock the kept orders are
for the batch of the COMMIT that made them; so REVEAL and MATCH handle orders of their own
batch exactly when the commits behind the orders are of that batch.
-/
import DeadmktNode.LoopClock

namespace RunLoop

section

variable [Externals]

/-! ## A constant clock -/

/-- An answer that keeps a value. -/
def Keeps {α : Type*} (old : α) (answer : Option α) : Prop := ∀ new ∈ answer, new = old

/-- The input changes neither epoch nor parameters: what is fetched again is what was
there, and no governance event reloads the parameters. -/
def ConstantClock (epoch : BatchEpoch) (params : BatchParams) : Input → Prop
  | .gossip _ => True
  | .block obs => Keeps epoch obs.newEpoch ∧ Keeps params obs.newParams ∧
      ∀ event ∈ obs.events.getD [], ∀ batchId paramName newValue,
        event.1 ≠ .parameterChangeApplied batchId paramName newValue

omit [Externals] in
/-- A block at which nothing is fetched and no event is polled. -/
theorem constantClock_of_none {epoch : BatchEpoch} {params : BatchParams} {obs : Observation}
    (he : obs.newEpoch = none) (hp : obs.newParams = none) (hevents : obs.events = none) :
    ConstantClock epoch params (.block obs) := by
  refine ⟨fun new h => ?_, fun new h => ?_, fun event h => ?_⟩
  · rw [he] at h; cases h
  · rw [hp] at h; cases h
  · rw [hevents] at h; cases h

namespace Core

/-- The commits with the orders behind them. -/
def commitments (c : Core) : List (CommitMessage × ValidatedOrder) :=
  c.publishedCommits.zip c.committedOrders

/-- Both clocks have this epoch and these parameters, every commit has an order behind it,
and the order is for the batch of the commit. -/
structure Aligned (epoch : BatchEpoch) (params : BatchParams) (c : Core) : Prop where
  epoch_eq : c.epoch = epoch
  params_eq : c.params = params
  bridgeEpoch : c.bridge.epoch = epoch
  bridgeParams : c.bridge.params = params
  orders : c.committedOrders = c.commitments.map Prod.snd
  encodes : ∀ p ∈ c.commitments, EncodesFor p.1.batchId p.2.orderBytes

variable {epoch : BatchEpoch} {params : BatchParams} {c : Core}

theorem Aligned.advance (h : c.Aligned epoch params) (block : UInt64) :
    (c.advance block).Aligned epoch params :=
  ⟨h.epoch_eq, h.params_eq, h.bridgeEpoch, h.bridgeParams, h.orders, h.encodes⟩

theorem Aligned.refetch (h : c.Aligned epoch params) {obs : Observation}
    (he : Keeps epoch obs.newEpoch) (hp : Keeps params obs.newParams) :
    (c.refetch obs).Aligned epoch params := by
  obtain ⟨hbe, hbp, -⟩ := bridge_refetch c obs
  refine ⟨?_, ?_, hbe.trans h.bridgeEpoch, hbp.trans h.bridgeParams, h.orders, h.encodes⟩
  · change obs.newEpoch.getD c.epoch = epoch
    cases hn : obs.newEpoch with
    | none => exact h.epoch_eq
    | some new => exact he new hn
  · change obs.newParams.getD c.params = params
    cases hn : obs.newParams with
    | none => exact h.params_eq
    | some new => exact hp new hn

theorem Aligned.finish (h : c.Aligned epoch params) {obs : Observation}
    (hobs : ConstantClock epoch params (.block obs)) : (c.finish obs).Aligned epoch params := by
  have hc : ((c.polled obs).foldl follow c).Aligned epoch params := by
    refine List.foldlRecOn (motive := fun c : Core => c.Aligned epoch params) (c.polled obs)
      follow h ?_
    intro c' hc' event hevent
    obtain ⟨e, he, rfl⟩ := mem_polled hevent
    cases hreload : e.1 with
    | parameterChangeApplied b name v => exact absurd hreload (hobs.2.2 e he b name v)
    | _ => exact ⟨hc'.epoch_eq, hc'.params_eq, hc'.bridgeEpoch, hc'.bridgeParams, hc'.orders,
        hc'.encodes⟩
  exact ⟨hc.epoch_eq, hc.params_eq, hc.bridgeEpoch, hc.bridgeParams, hc.orders, hc.encodes⟩

/-- A COMMIT for batch `b` of both clocks. -/
theorem Aligned.commit (h : c.Aligned epoch params) {b nftId poolId : UInt64}
    {orders : List ValidatedOrder} (horders : ∀ v ∈ orders, EncodesFor b v.orderBytes) :
    Core.Aligned epoch params { c with
      publishedCommits := orders.map fun v => ⟨nftId, poolId, b, v.commitHash⟩
      committedOrders := orders } := by
  have hzip : ∀ f : ValidatedOrder → CommitMessage,
      (orders.map f).zip orders = orders.map fun v => (f v, v) := by
    intro f
    simpa using List.zip_map' (f := f) (g := id) (l := orders)
  refine ⟨h.epoch_eq, h.params_eq, h.bridgeEpoch, h.bridgeParams, ?_, ?_⟩
  · rw [commitments, hzip, List.map_map]
    exact (List.map_id _).symm
  · intro p hp
    rw [commitments, hzip] at hp
    obtain ⟨v, hv, rfl⟩ := List.mem_map.mp hp
    exact horders v hv

end Core

/-! ## Steps and runs -/

/-- The core stays aligned up to the handler of a block, where the orchestrator's clock
names the batch of the loop. -/
theorem aligned_atHandler (cfg : RunConfig) {epoch : BatchEpoch} {params : BatchParams}
    {l : RunLoop} {obs : Observation} (h : l.core.Aligned epoch params)
    (hobs : ConstantClock epoch params (.block obs)) :
    (l.atHandler cfg obs).1.core.Aligned epoch params ∧
      (l.atHandler cfg obs).1.core.bridge.currentBatchId = l.newBatchId obs := by
  have hcore : (l.atHandler cfg obs).1.core.Aligned epoch params := by
    rw [core_atHandler]
    split_ifs
    · exact (h.advance obs.block).refetch hobs.1 hobs.2.1
    · exact h.advance obs.block
  refine ⟨hcore, ?_⟩
  obtain ⟨-, -, hblock, -⟩ := l.bridge_atHandler cfg obs
  have he : l.epoch = epoch := h.epoch_eq
  have hp : l.params = params := h.params_eq
  rw [BatchStateBridge.currentBatchId, hblock, hcore.bridgeEpoch, hcore.bridgeParams,
    newBatchId, he, hp]

/-- **Step.** -/
theorem Core.Aligned.step {epoch : BatchEpoch} {params : BatchParams} {cfg : RunConfig}
    {l l' : RunLoop} {i : Input} (h : l.core.Aligned epoch params)
    (hi : ConstantClock epoch params i) (hstep : RunLoop.step cfg l i = some l') :
    l'.core.Aligned epoch params := by
  cases step_core hstep with
  | gossip msg hcore => rwa [hcore]
  | old obs hold hcore => rwa [hcore]
  | skipped obs htrans hbehind hcore =>
      rw [hcore]
      exact h.advance obs.block
  | quiet obs hnew hquiet hcore =>
      rw [hcore]
      exact (h.advance obs.block).finish hi
  | handled obs r hruns hr hcore =>
      rw [hcore]
      refine Core.Aligned.finish ?_ hi
      obtain ⟨hh, hbatch⟩ := aligned_atHandler cfg h hi
      -- COMMIT alone adds orders, and it stores them under the batch of the clock
      generalize l.newPhase obs = newPhase at hr
      cases newPhase with
      | commit =>
          obtain ⟨nftId, poolId, orders, horders, hr⟩ := core_commitPhase hr
          rw [hr, hbatch]
          exact hh.commit horders
      | reveal =>
          obtain rfl := Option.some.inj hr
          rwa [core_revealPhase]
      | «match» =>
          obtain rfl := Option.some.inj hr
          rw [core_matchPhase]
          exact ⟨hh.epoch_eq, hh.params_eq, hh.bridgeEpoch, hh.bridgeParams, hh.orders,
            hh.encodes⟩
      | swap =>
          rw [core_swapPhase hr]
          exact ⟨hh.epoch_eq, hh.params_eq, hh.bridgeEpoch, hh.bridgeParams, hh.orders,
            hh.encodes⟩

/-- The start is aligned. -/
theorem aligned_start (cfg : RunConfig) (epoch : BatchEpoch) (params : BatchParams)
    (numPools height : UInt64) (tracker : EscrowTracker) (gasBalance : Option UInt64) :
    (start cfg epoch params numPools height tracker gasBalance).core.Aligned epoch params :=
  ⟨rfl, rfl, rfl, rfl, rfl, fun _ hp => absurd hp List.not_mem_nil⟩

/-- **Run.** -/
theorem aligned_of_run {cfg : RunConfig} {epoch : BatchEpoch} {params : BatchParams}
    {l l' : RunLoop} {is : List Input} (h : l.core.Aligned epoch params)
    (his : ∀ i ∈ is, ConstantClock epoch params i) (hrun : (system cfg).run l is = some l') :
    l'.core.Aligned epoch params :=
  (system cfg).run_invariant (I := fun l => l.core.Aligned epoch params)
    (fun _ _ _ hs hi hstep => hs.step hi hstep) h
    ((system cfg).follows_of_forall his l) hrun

/-! ## Own orders in REVEAL and MATCH -/

/-- The loop when the handler of a block has drained the channel. -/
def ready (cfg : RunConfig) (l : RunLoop) (obs : Observation) : RunLoop :=
  (l.atHandler cfg obs).1.drain obs.late

/-- The indices that REVEAL reveals. -/
def revealedIndices (cfg : RunConfig) (l : RunLoop) (obs : Observation) : List UInt32 :=
  Orchestrator.revealIndices (l.ready cfg obs).node.orchestrator.publishedCommits.length
    ((l.ready cfg obs).strategyIndices obs)

/-- The reveals that the REVEAL handler adds to the published ones. -/
def newReveals (cfg : RunConfig) (l : RunLoop) (obs : Observation) : List RevealMessage :=
  ((l.atHandler cfg obs).1.revealPhase obs).1.node.orchestrator.publishedReveals.drop
    (l.atHandler cfg obs).1.node.orchestrator.publishedReveals.length

/-- The own orders that REVEAL publishes, or that MATCH feeds to the engine, are for the
batch of the block. -/
def OwnOrdersCurrent (cfg : RunConfig) (l : RunLoop) (obs : Observation) : Prop :=
  match l.newPhase obs with
  | .reveal => ∀ r ∈ l.newReveals cfg obs, EncodesFor (l.newBatchId obs) r.orderBytes
  | .match => ∀ r ∈ (l.ready cfg obs).node.orchestrator.ownRevealed,
      r.order.batchId = l.newBatchId obs
  | _ => True

/-- A commit of the batch of the block, unless its order does not even decode. -/
def CommittedNow (l : RunLoop) (obs : Observation) (p : CommitMessage × ValidatedOrder) :
    Prop :=
  decodeOrder p.2.orderBytes ≠ none → p.1.batchId = l.newBatchId obs

/-- The commits behind the orders that REVEAL publishes, or that MATCH feeds to the engine,
were published in the batch of the block. -/
def CommitsCurrent (cfg : RunConfig) (l : RunLoop) (obs : Observation) : Prop :=
  match l.newPhase obs with
  | .reveal => ∀ idx ∈ l.revealedIndices cfg obs, ∀ p ∈ l.core.commitments[idx.toNat]?,
      l.CommittedNow obs p
  | .match => ∀ p ∈ l.core.commitments, l.CommittedNow obs p
  | _ => True

theorem core_ready (cfg : RunConfig) (l : RunLoop) (obs : Observation) :
    (l.ready cfg obs).core.committedOrders = l.core.committedOrders := by
  rw [ready, core_drain, core_atHandler]
  split_ifs <;> rfl

theorem publishedReveals_drain (l : RunLoop) (msgs : List GossipMessage) :
    (l.drain msgs).node.orchestrator.publishedReveals
      = l.node.orchestrator.publishedReveals := by
  refine foldl_preserves (V := fun n : LiveNode => n.orchestrator.publishedReveals) ?_ msgs l.node
  intro n msg
  obtain ⟨commits, reveals, h⟩ := n.orchestrator_processInboundGossip msg
  rw [h]

/-- REVEAL publishes one reveal for each index. -/
theorem newReveals_eq (cfg : RunConfig) (l : RunLoop) (obs : Observation) :
    l.newReveals cfg obs = (l.revealedIndices cfg obs).map
      ((l.ready cfg obs).node.orchestrator.revealAt (l.ready cfg obs).node.orchestrator.batchId
        (l.ready cfg obs).node.orchestrator.poolId) := by
  have hdrain : (l.atHandler cfg obs).1.node.orchestrator.publishedReveals
      = (l.ready cfg obs).node.orchestrator.publishedReveals :=
    (publishedReveals_drain _ obs.late).symm
  rw [newReveals, revealPhase, hdrain]
  dsimp only
  rw [LiveNode.orchestrator_revealHandler]
  exact List.drop_left

omit [Externals] in
/-- The bytes of a reveal: those of the committed order, or the index as one byte. -/
theorem orderBytes_revealAt (o : LiveOrchestrator) (batchId poolId : UInt64) (idx : UInt32) :
    (o.revealAt batchId poolId idx).orderBytes
      = ((o.committedOrders[idx.toNat]?).map ValidatedOrder.orderBytes).getD [idx.toUInt8] := rfl

/-- The own orders of MATCH are those that the committed bytes encode. -/
theorem forall_ownRevealed_iff (o : LiveOrchestrator) (b : UInt64) :
    (∀ r ∈ o.ownRevealed, r.order.batchId = b) ↔
      ∀ v ∈ o.committedOrders, EncodesFor b v.orderBytes := by
  constructor
  · intro h v hv order horder
    refine h ⟨order, v.signature, orderHash order⟩ (List.mem_filterMap.mpr ⟨v, hv, ?_⟩)
    rw [Orchestrator.decodeRevealed, horder]
    rfl
  · intro h r hr
    obtain ⟨v, hv, hr⟩ := List.mem_filterMap.mp hr
    obtain ⟨order, horder, rfl⟩ := Option.map_eq_some_iff.mp hr
    exact h v hv order horder

/-- An order behind an aligned commit is for the batch of the block exactly when the commit
is. -/
theorem encodesFor_iff_committedNow {l : RunLoop} {obs : Observation}
    {p : CommitMessage × ValidatedOrder} (h : EncodesFor p.1.batchId p.2.orderBytes) :
    EncodesFor (l.newBatchId obs) p.2.orderBytes ↔ l.CommittedNow obs p := by
  constructor
  · intro hnow hdec
    obtain ⟨order, horder⟩ := Option.ne_none_iff_exists'.mp hdec
    exact (h order horder).symm.trans (hnow order horder)
  · intro hnow order horder
    have hne : decodeOrder p.2.orderBytes ≠ none := by
      rw [horder]
      exact Option.some_ne_none order
    exact (h order horder).trans (hnow hne)

/-- **No stale own orders.**  With a constant clock, in a run from start-up: the own orders
of a REVEAL or MATCH handler are for its batch exactly when the commits behind them are. -/
theorem own_orders_current_iff (cfg : RunConfig) (epoch : BatchEpoch) (params : BatchParams)
    (numPools height : UInt64) (tracker : EscrowTracker) (gasBalance : Option UInt64)
    {is : List Input} {l : RunLoop} (his : ∀ i ∈ is, ConstantClock epoch params i)
    (hrun : (system cfg).run (start cfg epoch params numPools height tracker gasBalance) is
      = some l) (obs : Observation) :
    l.OwnOrdersCurrent cfg obs ↔ l.CommitsCurrent cfg obs := by
  have h := aligned_of_run (aligned_start cfg epoch params numPools height tracker gasBalance)
    his hrun
  have horders : (l.ready cfg obs).node.orchestrator.committedOrders
      = l.core.commitments.map Prod.snd := (core_ready cfg l obs).trans h.orders
  unfold OwnOrdersCurrent CommitsCurrent
  cases l.newPhase obs with
  | commit => exact Iff.rfl
  | swap => exact Iff.rfl
  | reveal =>
      dsimp only
      rw [newReveals_eq, List.forall_mem_map]
      refine forall₂_congr fun idx _ => ?_
      rw [orderBytes_revealAt, horders, List.getElem?_map]
      cases hp : l.core.commitments[idx.toNat]? with
      | none =>
          -- a placeholder encodes no order
          refine iff_of_true (fun order horder => ?_) (by simp)
          rw [decodeOrder_of_length_lt (by simp)] at horder
          cases horder
      | some p =>
          have hmem := List.mem_of_getElem? hp
          simpa using encodesFor_iff_committedNow (h.encodes p hmem)
  | «match» =>
      dsimp only
      rw [forall_ownRevealed_iff, horders, List.forall_mem_map]
      exact forall₂_congr fun p hp => encodesFor_iff_committedNow (h.encodes p hp)

end

/-! ## A stale order -/

section

attribute [local instance] sampleExternals

theorem constantClock_commitBlock :
    ∀ i ∈ [commitBlock], ConstantClock ⟨100, 6⟩ ⟨10, 4, 3, 1, 2, 3⟩ i := by
  intro i hi
  obtain rfl := List.mem_singleton.mp hi
  exact constantClock_of_none rfl rfl rfl

/-- The order of the COMMIT in batch 7 is revealed in batch 7. -/
theorem revealed_in_its_batch :
    committedLoop.RunsHandler (silentBlock 114) ∧
      committedLoop.OwnOrdersCurrent sampleConfig (silentBlock 114) := by
  refine ⟨by decide +kernel, ?_⟩
  refine (own_orders_current_iff sampleConfig ⟨100, 6⟩ ⟨10, 4, 3, 1, 2, 3⟩ 1 105 sampleTracker
    (some 10000000000) constantClock_commitBlock run_committedLoop (silentBlock 114)).mpr ?_
  have hphase : committedLoop.newPhase (silentBlock 114) = .reveal := by decide +kernel
  have hbatch : ∀ p ∈ committedLoop.core.commitments,
      p.1.batchId = committedLoop.newBatchId (silentBlock 114) := by
    decide +kernel
  rw [CommitsCurrent, hphase]
  exact fun idx _ p hp _ => hbatch p (List.mem_of_getElem? hp)

/-- The next block that the loop observes is in REVEAL of batch 8: the order of batch 7 is
revealed there. -/
theorem revealed_a_batch_late :
    ¬ ∀ (cfg : RunConfig) (epoch : BatchEpoch) (params : BatchParams)
      (numPools height : UInt64) (tracker : EscrowTracker) (gasBalance : Option UInt64)
      (is : List Input) (obs : Observation) (l : RunLoop),
      (heights (is ++ [.block obs])).Pairwise (· < ·) →
      (∀ i ∈ is, ConstantClock epoch params i) → ConstantClock epoch params (.block obs) →
      (system cfg).run (start cfg epoch params numPools height tracker gasBalance) is = some l →
      l.RunsHandler obs → l.OwnOrdersCurrent cfg obs := by
  intro h
  have hcur := h sampleConfig ⟨100, 6⟩ ⟨10, 4, 3, 1, 2, 3⟩ 1 105 sampleTracker
    (some 10000000000)
    [commitBlock] (silentBlock 124) committedLoop (by decide) constantClock_commitBlock
    (constantClock_of_none rfl rfl rfl) run_committedLoop (by decide +kernel)
  have hphase : committedLoop.newPhase (silentBlock 124) = .reveal := by decide +kernel
  rw [OwnOrdersCurrent, hphase] at hcur
  have hstale : ∃ r ∈ committedLoop.newReveals sampleConfig (silentBlock 124),
      ∃ order ∈ decodeOrder r.orderBytes,
        order.batchId ≠ committedLoop.newBatchId (silentBlock 124) := by
    decide +kernel
  obtain ⟨r, hr, order, horder, hne⟩ := hstale
  exact hne (hcur r hr order horder)

end

end RunLoop
