/-
# Pausing for gas

At a batch boundary the loop looks at its gas: it stops trading when the balance is critical, and
starts again only when the balance is normal, so that a balance between the two thresholds changes
nothing.  A run leaves its milestones, the boundaries with their gas and the COMMIT phases; whether
the loop is paused, and since when, can be read off them (`tradingPaused_iff`).  A paused loop
commits nothing.  It asks nothing of the strategy in REVEAL either, and then reveals all that it
has committed: it is silent there only since the first COMMIT of the pause
(`published_before_pause`).
-/
import DeadmktNode.CommitQuota

/-! ## Milestones -/

/-- What a block does that matters to the pause. -/
inductive Milestone where
  /-- a batch boundary, and what the gas is like there -/
  | boundary (batchId : UInt64) (status : GasStatus)
  /-- the COMMIT phase -/
  | commit
deriving DecidableEq, Repr

namespace Milestone

/-- The gas that a boundary saw. -/
def status : Milestone → Option GasStatus
  | boundary _ status => some status
  | commit => none

/-- A critical boundary that no later normal one takes back. -/
def Paused (ms : List Milestone) : Prop :=
  Standing (fun m : Milestone => m.status = some .critical)
    (fun m : Milestone => m.status = some .normal) ms

instance (ms : List Milestone) : Decidable (Paused ms) := by
  unfold Paused
  infer_instance

/-- The boundary that began the pause: it is critical, before it there was no pause, and nothing
has ended this one since. -/
def PausedSince (ms : List Milestone) (batchId : UInt64) : Prop :=
  ∃ before after, ms = before ++ boundary batchId .critical :: after ∧ ¬ Paused before ∧
    ∀ m ∈ after, m.status ≠ some .normal

/-- The last COMMIT phase was outside of a pause. -/
def LastCommitUnpaused (ms : List Milestone) : Prop :=
  ∃ before after, ms = before ++ commit :: after ∧ commit ∉ after ∧ ¬ Paused before

/-- A boundary pauses, takes a pause back or leaves it. -/
theorem paused_snoc {ms : List Milestone} {m : Milestone} :
    Paused (ms ++ [m]) ↔ m.status = some .critical ∨ (Paused ms ∧ m.status ≠ some .normal) :=
  standing_snoc

/-- A commit leaves it. -/
theorem paused_snoc_commit {ms : List Milestone} : Paused (ms ++ [commit]) ↔ Paused ms := by
  rw [paused_snoc]
  simp [status]

/-- A pause goes on through every milestone that is not a normal boundary. -/
theorem PausedSince.snoc {ms : List Milestone} {batchId : UInt64} (h : PausedSince ms batchId)
    {m : Milestone} (hm : m.status ≠ some .normal) : PausedSince (ms ++ [m]) batchId := by
  obtain ⟨before, after, rfl, hbefore, hafter⟩ := h
  refine ⟨before, after ++ [m], by simp, hbefore, ?_⟩
  intro m' hm'
  rcases List.mem_append.mp hm' with hm' | hm'
  · exact hafter m' hm'
  · rw [List.mem_singleton.mp hm']
    exact hm

/-- A boundary comes after the last COMMIT. -/
theorem LastCommitUnpaused.snoc_boundary {ms : List Milestone} (h : LastCommitUnpaused ms)
    (batchId : UInt64) (status : GasStatus) :
    LastCommitUnpaused (ms ++ [boundary batchId status]) := by
  obtain ⟨before, after, rfl, hafter, hbefore⟩ := h
  refine ⟨before, after ++ [boundary batchId status], by simp, ?_, hbefore⟩
  rw [List.mem_append, List.mem_singleton]
  rintro (h | h)
  · exact hafter h
  · cases h

/-- COMMIT outside of a pause. -/
theorem lastCommitUnpaused_snoc_commit {ms : List Milestone} (h : ¬ Paused ms) :
    LastCommitUnpaused (ms ++ [commit]) :=
  ⟨ms, [], rfl, List.not_mem_nil, h⟩

end Milestone

namespace RunLoop

section

variable [Externals]

/-- The gas at a boundary: a balance is read in every tenth batch only. -/
def gasAt (l : RunLoop) (obs : Observation) : GasManager :=
  if l.newBatchId obs % 10 = 0 then
    match obs.newGasBalance with
    | none => l.gas
    | some balance => (l.gas.updateBalance balance).2
  else l.gas

/-- The milestone of the boundary of a block. -/
def boundaryMilestone (l : RunLoop) (obs : Observation) : List Milestone :=
  if l.newBatchId obs ≠ l.lastBatchId then
    [.boundary (l.newBatchId obs) (l.gasAt obs).checkStatus]
  else []

/-- The milestone of the phase of a block. -/
def phaseMilestone (newPhase : Phase) : List Milestone :=
  if newPhase = .commit then [.commit] else []

/-- The milestones of an input. -/
def milestones (l : RunLoop) : Input → List Milestone
  | .gossip _ => []
  | .block obs =>
      if l.RunsHandler obs then l.boundaryMilestone obs ++ phaseMilestone (l.newPhase obs) else []

/-- The milestones of a run, in order. -/
def passed (cfg : RunConfig) (l : RunLoop) (is : List Input) : List Milestone :=
  ((system cfg).trace (fun l i => some (l.milestones i)) l is).flatten

/-- **Invariants with the milestones that were passed.** -/
theorem passed_history {cfg : RunConfig} {I : List Milestone → RunLoop → Prop}
    (hstep : ∀ ms l i r, I ms l → l.handle cfg i = some r → I (ms ++ l.milestones i) r.1)
    {l l' : RunLoop} {is : List Input} (hl : I [] l) (hrun : (system cfg).run l is = some l') :
    I (passed cfg l is) l' := by
  have h : I (([] : List (List Milestone))
      ++ (system cfg).trace (fun l i => some (l.milestones i)) l is).flatten l' := by
    refine (system cfg).trace_history _ (I := fun shown l => I shown.flatten l) ?_ hl hrun
    intro shown l i l' hI hl'
    obtain ⟨r, hr, rfl⟩ := Option.map_eq_some_iff.mp hl'
    rw [List.flatten_append, Option.toList_some, List.flatten_singleton]
    exact hstep _ l i r hI hr
  exact h

/-! ## Gas and pause -/

/-- The part of the state that the gas decides. -/
structure PauseState where
  gas : GasManager
  tradingPaused : Bool
  pausedSinceBatch : UInt64

/-- The part of the loop that pauses. -/
def pauseState (l : RunLoop) : PauseState where
  gas := l.gas
  tradingPaused := l.tradingPaused
  pausedSinceBatch := l.pausedSinceBatch

/-- A block that arrives does not pause. -/
theorem pauseState_arrive (l : RunLoop) (obs : Observation) :
    (l.arrive obs).pauseState = l.pauseState := by
  show ((l.drain obs.buffered).trackConnection obs.strategyConnected).pauseState = _
  unfold trackConnection
  dsimp only
  split_ifs <;> rfl

/-- Neither does what is fetched again. -/
theorem pauseState_refetch (l : RunLoop) (obs : Observation) :
    (l.refetch obs).pauseState = l.pauseState := by
  unfold refetch
  cases obs.newNumPools with
  | none => rfl
  | some newNumPools =>
      dsimp only
      split_ifs <;> rfl

/-- Neither does a new pool. -/
theorem pauseState_reassignPool (cfg : RunConfig) (l : RunLoop) (obs : Observation)
    (newBatchId : UInt64) : (l.reassignPool cfg obs newBatchId).1.pauseState = l.pauseState := by
  unfold reassignPool
  dsimp only
  split_ifs <;> rfl

/-- The end of a block leaves it alone. -/
theorem pauseState_finish (obs : Observation) (newPhase : Phase) (newBatchId : UInt64)
    (r : RunLoop × List LoopOutput) :
    (finish obs newPhase newBatchId r).1.pauseState = r.1.pauseState := by
  have hresults : (obs.results.foldl (drainReport obs.block newBatchId) r.1).pauseState
      = r.1.pauseState :=
    foldl_preserves (V := pauseState) (f := drainReport obs.block newBatchId) (fun _ _ => rfl)
      obs.results r.1
  have hpoll : ∀ l : RunLoop, (l.pollEvents obs).pauseState = l.pauseState := by
    intro l
    unfold pollEvents
    split_ifs
    · exact foldl_preserves (V := pauseState) (f := handleEvent) (fun _ _ => rfl)
        (obs.events.getD []) l
    · rfl
  exact (hpoll _).trans hresults

/-- So does the handler of a phase. -/
theorem pauseState_phaseHandler {cfg : RunConfig} {l : RunLoop} {obs : Observation}
    {newBatchId : UInt64} {newPhase : Phase} {r : RunLoop × List LoopOutput}
    (h : l.phaseHandler cfg obs newBatchId newPhase = some r) :
    r.1.pauseState = l.pauseState := by
  cases newPhase with
  | commit =>
      obtain ⟨orders, -, rfl⟩ := Option.map_eq_some_iff.mp h
      show ((l.drain obs.late).enterFirstBatch).pauseState = _
      unfold enterFirstBatch
      split_ifs
      · split <;> rfl
      · rfl
  | reveal =>
      obtain rfl := Option.some.inj h
      rfl
  | «match» =>
      obtain rfl := Option.some.inj h
      rfl
  | swap =>
      rcases swapPhase_cases h with ⟨-, p, -, rfl⟩ | ⟨-, rfl⟩ <;> rfl

/-- The gas of a boundary, and what the boundary makes of the pause. -/
theorem pauseState_atHandler (cfg : RunConfig) (l : RunLoop) (obs : Observation) :
    (l.atHandler cfg obs).1.pauseState
      = if l.newBatchId obs ≠ l.lastBatchId then
          ({ l with gas := l.gasAt obs }.updatePause (l.newBatchId obs)).pauseState
        else l.pauseState := by
  unfold atHandler
  split_ifs with hbatch
  · -- before the pause is updated, the boundary changes nothing but the gas
    have hupdate : ∀ l₁ l₂ : RunLoop, l₁.pauseState = l₂.pauseState →
        (l₁.updatePause (l.newBatchId obs)).pauseState
          = (l₂.updatePause (l.newBatchId obs)).pauseState := by
      intro l₁ l₂ h
      obtain ⟨hgas, hpaused, hsince⟩ := PauseState.mk.inj h
      unfold updatePause pauseState
      rw [hgas, hpaused]
      split_ifs
      · simp
      · simp
      · simp [hgas, hpaused, hsince]
    apply hupdate
    refine (pauseState_reassignPool ..).trans ?_
    have hrefresh : ∀ l₁ : RunLoop, l₁.pauseState = l.pauseState →
        (l₁.refreshGas obs (l.newBatchId obs)).pauseState
          = pauseState { l with gas := l.gasAt obs } := by
      intro l₁ h
      obtain ⟨hgas, hpaused, hsince⟩ := PauseState.mk.inj h
      unfold refreshGas gasAt pauseState
      split_ifs
      · cases obs.newGasBalance with
        | none => simp [hgas, hpaused, hsince]
        | some balance => simp [hgas, hpaused, hsince]
      · simp [hgas, hpaused, hsince]
    apply hrefresh
    rw [pauseState_refetch]
    exact l.pauseState_arrive obs
  · exact l.pauseState_arrive obs

/-! ## The pause and the milestones -/

/-- What the milestones say about a state. -/
structure PauseKept (cfg : RunConfig) (ms : List Milestone) (l : RunLoop) : Prop where
  paused : l.tradingPaused = true ↔ Milestone.Paused ms
  since : if l.tradingPaused = true then Milestone.PausedSince ms l.pausedSinceBatch
    else l.pausedSinceBatch = 0
  flushed : Flushed cfg.nftId l.outgoing
  commits : l.core.publishedCommits ≠ [] → Milestone.LastCommitUnpaused ms

variable {cfg : RunConfig} {ms : List Milestone}

omit [Externals] in
/-- Only the pause, the queues and the commits matter to the milestones. -/
theorem PauseKept.congr {l l' : RunLoop} (h : PauseKept cfg ms l)
    (hpause : l'.pauseState = l.pauseState) (hflushed : Flushed cfg.nftId l'.outgoing)
    (hcore : l'.core.publishedCommits = l.core.publishedCommits) : PauseKept cfg ms l' := by
  obtain ⟨-, hpaused, hsince⟩ := PauseState.mk.inj hpause
  refine ⟨?_, ?_, hflushed, ?_⟩
  · rw [hpaused]
    exact h.paused
  · rw [hpaused, hsince]
    exact h.since
  · rw [hcore]
    exact h.commits

omit [Externals] in
/-- A boundary is a milestone. -/
theorem PauseKept.updatePause {l : RunLoop} (h : PauseKept cfg ms l) (gas : GasManager)
    (newBatchId : UInt64) :
    PauseKept cfg (ms ++ [.boundary newBatchId gas.checkStatus])
      ({ l with gas := gas }.updatePause newBatchId) := by
  have hcore : ({ l with gas := gas }.updatePause newBatchId).core = l.core :=
    core_updatePause _ _
  have hout : ({ l with gas := gas }.updatePause newBatchId).outgoing = l.outgoing :=
    outgoing_updatePause _ _
  refine ⟨?_, ?_, ?_, ?_⟩
  · rw [Milestone.paused_snoc, ← h.paused]
    unfold RunLoop.updatePause
    cases l.tradingPaused <;> cases gas.checkStatus <;> simp [Milestone.status]
  · have hsince := h.since
    unfold RunLoop.updatePause
    cases hpaused : l.tradingPaused with
    | false =>
        rw [hpaused] at hsince
        -- a pause that begins here begins with this very boundary
        have hnot : ¬ Milestone.Paused ms := by
          rw [← h.paused, hpaused]
          exact Bool.false_ne_true
        cases hstatus : gas.checkStatus with
        | critical => simpa using ⟨ms, [], rfl, hnot, by simp⟩
        | low => simpa [hstatus, hpaused] using hsince
        | normal => simpa [hstatus, hpaused] using hsince
    | true =>
        rw [hpaused, if_pos rfl] at hsince
        -- low gas does not end a pause, only normal gas does
        have hgoesOn : ∀ status : GasStatus, status ≠ .normal →
            Milestone.PausedSince (ms ++ [.boundary newBatchId status]) l.pausedSinceBatch := by
          intro status hstatus
          apply hsince.snoc
          rw [Milestone.status]
          exact fun h => hstatus (Option.some.inj h)
        cases hstatus : gas.checkStatus with
        | critical => simpa [hstatus, hpaused] using hgoesOn .critical (by decide)
        | low => simpa [hstatus, hpaused] using hgoesOn .low (by decide)
        | normal => simp
  · rw [hout]
    exact h.flushed
  · rw [hcore]
    exact fun hne => (h.commits hne).snoc_boundary newBatchId gas.checkStatus

/-- The milestones when the phase handler starts. -/
theorem PauseKept.atHandler {l : RunLoop} (h : PauseKept cfg ms l) (obs : Observation) :
    PauseKept cfg (ms ++ l.boundaryMilestone obs) (l.atHandler cfg obs).1 := by
  have hflushed := h.flushed.atHandler cfg obs
  have hcommits : (l.atHandler cfg obs).1.core.publishedCommits = l.core.publishedCommits := by
    rw [core_atHandler]
    split_ifs <;> rfl
  have hpause := l.pauseState_atHandler cfg obs
  unfold boundaryMilestone
  split_ifs at hpause ⊢ with hbatch
  · refine (h.updatePause (l.gasAt obs) (l.newBatchId obs)).congr hpause hflushed ?_
    rw [hcommits, core_updatePause]
    rfl
  · rw [List.append_nil]
    exact h.congr hpause hflushed hcommits

/-- A paused COMMIT commits nothing and says nothing. -/
theorem commitPhase_of_paused {l : RunLoop} {obs : Observation} {newBatchId : UInt64}
    {r : RunLoop × List LoopOutput} (hflushed : Flushed cfg.nftId l.outgoing)
    (hpaused : l.tradingPaused = true) (h : l.commitPhase cfg obs newBatchId = some r) :
    r.1.core.publishedCommits = [] ∧ commandsOf r.2 = [] := by
  unfold commitPhase at h
  dsimp only at h
  have houtgoing : ((l.drain obs.late).enterFirstBatch).outgoing = l.outgoing := by
    rw [outgoing_enterFirstBatch, outgoing_drain]
  have hpaused' : ((l.drain obs.late).enterFirstBatch).tradingPaused = true := by
    rw [← hpaused]
    unfold enterFirstBatch
    split_ifs
    · split <;> rfl
    · rfl
  rw [← houtgoing] at hflushed
  generalize (l.drain obs.late).enterFirstBatch = l' at h hflushed hpaused'
  rw [hpaused', Bool.not_true, Bool.and_false] at h
  obtain ⟨orders, -, rfl⟩ := Option.map_eq_some_iff.mp h
  have hcommits : l'.node.orchestrator.gossip.pendingCommits = [] := hflushed.pendingCommits
  have hreveals : l'.node.orchestrator.gossip.pendingReveals = [] := hflushed.pendingReveals
  refine ⟨rfl, ?_⟩
  dsimp only
  rw [commitHandler_snd, hcommits, hreveals]
  rfl

/-- REVEAL says nothing if nothing was committed. -/
theorem revealPhase_of_nil {l : RunLoop} (hflushed : Flushed cfg.nftId l.outgoing)
    (hnil : l.core.publishedCommits = []) (obs : Observation) :
    commandsOf (l.revealPhase obs).2 = [] := by
  rw [← l.outgoing_drain obs.late] at hflushed
  rw [← l.core_drain obs.late] at hnil
  unfold revealPhase
  dsimp only
  generalize l.drain obs.late = l' at hflushed hnil
  have hcommits : l'.node.orchestrator.gossip.pendingCommits = [] := hflushed.pendingCommits
  have hreveals : l'.node.orchestrator.gossip.pendingReveals = [] := hflushed.pendingReveals
  have hpublished : l'.node.orchestrator.publishedCommits = [] := hnil
  have hindices : l'.strategyIndices obs = none := by
    rw [strategyIndices, hpublished]
    simp
  rw [hindices, revealHandler_snd, hcommits, hreveals, hpublished]
  rfl

/-- The handler of a phase passes the milestone of the phase; it says something only since a
COMMIT outside of a pause. -/
theorem PauseKept.phaseHandler {l : RunLoop} {obs : Observation} {newBatchId : UInt64}
    {newPhase : Phase} {r : RunLoop × List LoopOutput} (h : PauseKept cfg ms l)
    (hr : l.phaseHandler cfg obs newBatchId newPhase = some r) :
    PauseKept cfg (ms ++ phaseMilestone newPhase) r.1 ∧
      (commandsOf r.2 ≠ [] → Milestone.LastCommitUnpaused (ms ++ phaseMilestone newPhase)) := by
  have hpause := pauseState_phaseHandler hr
  obtain ⟨hflushed, -⟩ := queuedCommits_phaseHandler h.flushed hr
  cases newPhase with
  | commit =>
      obtain ⟨-, hpaused, hsince⟩ := PauseState.mk.inj hpause
      have hlast : (r.1.core.publishedCommits ≠ [] ∨ commandsOf r.2 ≠ []) →
          Milestone.LastCommitUnpaused (ms ++ [.commit]) := by
        intro hsays
        -- in a pause COMMIT neither stores commits nor sends any
        apply Milestone.lastCommitUnpaused_snoc_commit
        intro hms
        obtain ⟨hcommits, hcommands⟩ := commitPhase_of_paused h.flushed (h.paused.mpr hms) hr
        rcases hsays with hsays | hsays
        · exact hsays hcommits
        · exact hsays hcommands
      refine ⟨⟨?_, ?_, hflushed, fun hne => hlast (.inl hne)⟩, fun hne => hlast (.inr hne)⟩
      · rw [hpaused, h.paused]
        exact Milestone.paused_snoc_commit.symm
      · have := h.since
        rw [hpaused, hsince]
        split_ifs at this ⊢
        · exact this.snoc (by simp [Milestone.status])
        · exact this
  | reveal =>
      obtain rfl := Option.some.inj hr
      have hcore : (l.revealPhase obs).1.core.publishedCommits = l.core.publishedCommits := by
        rw [core_revealPhase]
      rw [show phaseMilestone .reveal = [] from rfl, List.append_nil]
      refine ⟨h.congr hpause hflushed hcore, fun hne => h.commits fun hnil => hne ?_⟩
      -- without stored commits there is nothing to reveal
      exact revealPhase_of_nil h.flushed hnil obs
  | «match» =>
      obtain rfl := Option.some.inj hr
      have hcore : (l.matchPhase obs).core.publishedCommits = l.core.publishedCommits := by
        rw [core_matchPhase]
      rw [show phaseMilestone .match = [] from rfl, List.append_nil]
      exact ⟨h.congr hpause hflushed hcore, fun hne => absurd rfl hne⟩
  | swap =>
      have hcore : r.1.core.publishedCommits = l.core.publishedCommits := by
        rw [core_swapPhase hr]
      rw [show phaseMilestone .swap = [] from rfl, List.append_nil]
      exact ⟨h.congr hpause hflushed hcore, fun hne => absurd (outgoing_swapPhase hr).2 hne⟩

/-! ## Runs -/

omit [Externals] in
/-- Chain events leave the commits alone. -/
theorem publishedCommits_finish (c : Core) (obs : Observation) :
    (c.finish obs).publishedCommits = c.publishedCommits := by
  have hfollow : ∀ (c : Core) (event : ChainEvent),
      (c.follow event).publishedCommits = c.publishedCommits := by
    intro c event
    cases event <;> rfl
  exact foldl_preserves (V := Core.publishedCommits) hfollow (c.polled obs) c

omit [Externals] in
/-- No milestone is passed by a block without a handler. -/
theorem milestones_of_not_runsHandler {l : RunLoop} {obs : Observation}
    (h : ¬ l.RunsHandler obs) : l.milestones (.block obs) = [] := if_neg h

/-- Messages are published by the handler of a phase only. -/
theorem publish_mem_atHandler (l : RunLoop) (obs : Observation) (topic : UInt64)
    (msg : GossipMessage) : .publish topic msg ∉ commandsOf (l.atHandler cfg obs).2 := by
  rw [(l.atHandler_pool cfg obs).2]
  split_ifs
  · unfold poolChange
    cases obs.canUnsubscribe <;> cases obs.canSubscribe <;> simp
  · exact List.not_mem_nil

/-- **Step.** -/
theorem PauseKept.handle {l : RunLoop} {i : Input} {r : RunLoop × List LoopOutput}
    (h : PauseKept cfg ms l) (hr : l.handle cfg i = some r) :
    PauseKept cfg (ms ++ l.milestones i) r.1 ∧
      ∀ topic msg, .publish topic msg ∈ commandsOf r.2 →
        Milestone.LastCommitUnpaused (ms ++ l.milestones i) := by
  cases handle_cases hr with
  -- only a handler passes milestones and publishes
  | gossip msg =>
      rw [show l.milestones (.gossip msg) = [] from rfl, List.append_nil]
      have hout := l.outgoing_processInboundGossip msg
      refine ⟨h.congr rfl (by rw [hout]; exact h.flushed) ?_, fun _ _ hm => by cases hm⟩
      rw [core_processInboundGossip]
  | old obs hold =>
      rw [milestones_of_not_runsHandler fun hruns => UInt64.not_lt.mpr hold hruns.1,
        List.append_nil]
      have hout := l.outgoing_drain obs.buffered
      refine ⟨h.congr rfl (by rw [hout]; exact h.flushed) ?_, fun _ _ hm => by cases hm⟩
      rw [core_drain]
  | skipped obs hnew htrans hbehind =>
      rw [milestones_of_not_runsHandler fun hruns => hruns.2.2 hbehind, List.append_nil]
      have hout := l.outgoing_arrive obs
      have hcore : (l.arrive obs).core.publishedCommits = l.core.publishedCommits := by
        rw [core_arrive]
        rfl
      refine ⟨h.congr (l.pauseState_arrive obs) ?_ hcore, fun _ _ hm => by cases hm⟩
      show Flushed cfg.nftId (l.arrive obs).outgoing
      rw [hout]
      exact h.flushed
  | quiet obs hnew hquiet =>
      rw [milestones_of_not_runsHandler fun hruns => hquiet hruns.2.1, List.append_nil]
      refine ⟨h.congr ?_ ?_ ?_, fun topic msg hm => ?_⟩
      · rw [pauseState_finish, pauseState_arrive]
      · rw [outgoing_finish, outgoing_arrive]
        exact h.flushed
      · rw [core_finish, publishedCommits_finish, core_arrive]
        rfl
      · rw [commandsOf_finish] at hm
        cases hm
  | handled obs r₀ hruns hr₀ =>
      -- the boundary comes first, then the phase
      have hms : l.milestones (.block obs)
          = l.boundaryMilestone obs ++ phaseMilestone (l.newPhase obs) := if_pos hruns
      rw [hms, ← List.append_assoc]
      obtain ⟨hkept, hsays⟩ := (h.atHandler obs).phaseHandler hr₀
      refine ⟨hkept.congr (pauseState_finish ..) ?_ ?_, fun topic msg hm => hsays fun hnil => ?_⟩
      · rw [outgoing_finish]
        exact hkept.flushed
      · rw [core_finish, publishedCommits_finish]
      · rw [commandsOf_finish, commandsOf_append, hnil, List.append_nil] at hm
        exact l.publish_mem_atHandler obs topic msg hm

/-- The loop starts outside of a pause, whatever its gas. -/
theorem pauseKept_start (cfg : RunConfig) (epoch : BatchEpoch) (params : BatchParams)
    (numPools height : UInt64) (tracker : EscrowTracker) (gasBalance : Option UInt64) :
    PauseKept cfg [] (start cfg epoch params numPools height tracker gasBalance) :=
  ⟨iff_of_false Bool.false_ne_true not_standing_nil, rfl, ⟨rfl, rfl, rfl⟩,
    fun hne => absurd rfl hne⟩

/-- **The pause.**  After any run from start-up the loop is paused exactly if a boundary with
critical gas was passed and no boundary with normal gas since; it then remembers the batch of the
boundary that began the pause. -/
theorem tradingPaused_iff (cfg : RunConfig) (epoch : BatchEpoch) (params : BatchParams)
    (numPools height : UInt64) (tracker : EscrowTracker) (gasBalance : Option UInt64)
    {is : List Input} {l : RunLoop}
    (hrun : (system cfg).run (start cfg epoch params numPools height tracker gasBalance) is
      = some l) :
    (l.tradingPaused = true ↔ Milestone.Paused
        (passed cfg (start cfg epoch params numPools height tracker gasBalance) is)) ∧
      if l.tradingPaused = true then Milestone.PausedSince
          (passed cfg (start cfg epoch params numPools height tracker gasBalance) is)
          l.pausedSinceBatch
        else l.pausedSinceBatch = 0 := by
  have hkept := passed_history (I := PauseKept cfg) (fun _ _ _ _ h hr => (h.handle hr).1)
    (pauseKept_start cfg epoch params numPools height tracker gasBalance) hrun
  exact ⟨hkept.paused, hkept.since⟩

/-- **Silence in a pause.**  In a run from start-up, for any blocks and any answers: a block at
which a commitment is published is in COMMIT and outside of a pause; and a block at which anything
is published, a reveal too, stands after a COMMIT outside of a pause with no COMMIT in between. -/
theorem published_before_pause (cfg : RunConfig) (epoch : BatchEpoch) (params : BatchParams)
    (numPools height : UInt64) (tracker : EscrowTracker) (gasBalance : Option UInt64)
    {is : List Input} {l : RunLoop} {i : Input} {r : RunLoop × List LoopOutput}
    (hrun : (system cfg).run (start cfg epoch params numPools height tracker gasBalance) is
      = some l) (hr : l.handle cfg i = some r) {topic : UInt64} {msg : GossipMessage}
    (hpublished : .publish topic msg ∈ commandsOf r.2) :
    Milestone.LastCommitUnpaused
        (passed cfg (start cfg epoch params numPools height tracker gasBalance) is
          ++ l.milestones i) ∧
      ∀ batchId poolId hash nftId signature, msg = .commitment batchId poolId hash nftId signature →
        r.1.tradingPaused = false ∧ ∃ obs, i = .block obs ∧ l.newPhase obs = .commit := by
  have hkept := passed_history (I := PauseKept cfg) (fun _ _ _ _ h hr => (h.handle hr).1)
    (pauseKept_start cfg epoch params numPools height tracker gasBalance) hrun
  obtain ⟨hafter, hlast⟩ := hkept.handle hr
  refine ⟨hlast topic msg hpublished, ?_⟩
  rintro batchId poolId hash nftId signature rfl
  have hcommit : (⟨batchId, topic, poolId⟩ : QueuedCommit) ∈ queuedCommits (commandsOf r.2) :=
    List.mem_filterMap.mpr ⟨_, hpublished, rfl⟩
  cases handle_cases hr with
  | gossip msg => cases hcommit
  | old obs hold => cases hcommit
  | skipped obs hnew htrans hbehind => cases hcommit
  | quiet obs hnew hquiet =>
      rw [commandsOf_finish] at hcommit
      cases hcommit
  | handled obs r₀ hruns hr₀ =>
      rw [commandsOf_finish, commandsOf_append, queuedCommits_append, queuedCommits_atHandler,
        List.nil_append] at hcommit
      have hflushed := hkept.flushed.atHandler cfg obs
      obtain ⟨-, -, hall⟩ := queuedCommits_phaseHandler hflushed hr₀
      have hphase := (hall _ hcommit).1
      refine ⟨?_, obs, rfl, hphase⟩
      -- the last milestone is this COMMIT, and before it there was no pause
      have hms : l.milestones (.block obs) = l.boundaryMilestone obs ++ [.commit] := by
        rw [milestones, if_pos hruns, hphase]
        rfl
      obtain ⟨before, after, heq, hnone, hbefore⟩ := hlast topic _ hpublished
      rw [hms, ← List.append_assoc] at heq
      rcases System.snoc_eq_append_cons_iff.mp heq with ⟨-, rfl, -⟩ | ⟨rest, rfl, -⟩
      · rw [← Bool.not_eq_true, hafter.paused, hms, ← List.append_assoc,
          Milestone.paused_snoc_commit]
        exact hbefore
      · exact absurd (List.mem_append_right rest (List.mem_singleton_self _)) hnone

end

/-! ## A reveal in a pause

The sample node commits in batch 9; the next block that it sees is in REVEAL of batch 10, where
its gas is critical. -/

section

/-- The sell of batch 9 and its signature. -/
def laterSell : Order := { sampleSell with batchId := 9 }

/-- A signature of the later order. -/
def laterSignature : Bytes :=
  [56, 126, 6, 112, 218, 64, 89, 123, 101, 194, 177, 29, 43, 116, 96, 145, 90, 36, 210, 244, 57,
    246, 227, 64, 71, 51, 156, 26, 128, 32, 183, 42, 199, 173, 249, 210, 221, 206, 115, 204, 182,
    193, 42, 41, 19, 64, 184, 244, 223, 13, 211, 13, 120, 65, 35, 149, 57, 83, 233, 12, 145, 59,
    148, 2]

/-- Crates that sign the later order with it. -/
@[reducible] def laterExternals : Externals :=
  referenceExternals
    [⟨Vector.replicate 32 1, sellerKey, sampleBytes laterSell, laterSignature⟩]

attribute [local instance] laterExternals

/-- A loop that starts in batch 6. -/
def laterStart : RunLoop :=
  start sampleConfig ⟨100, 6⟩ ⟨10, 4, 3, 1, 2, 3⟩ 1 105 sampleTracker (some 10000000000)

/-- Its blocks up to a commit of batch 9. -/
def blocksUntilCommit : List Input :=
  [.block (silentBlock 125),
    .block { silentBlock 131 with
      strategyConnected := true
      canAsk := true
      action := some (.commit [⟨"EMM/KAY", "sell", "0.0000001", "5"⟩]) }]

/-- A reveal block of batch 10, at which the gas has run low. -/
def criticalReveal : Input :=
  .block { silentBlock 144 with
    strategyConnected := true
    newGasBalance := some 5 }

/-- The pause starts in batch 10. -/
theorem paused_since_batch_ten :
    ∃ l, (system sampleConfig).run laterStart (blocksUntilCommit ++ [criticalReveal]) = some l ∧
      l.tradingPaused = true ∧ l.pausedSinceBatch = 10 ∧
      Milestone.Paused
        (passed sampleConfig laterStart (blocksUntilCommit ++ [criticalReveal])) := by
  have hsome : ((system sampleConfig).run laterStart
      (blocksUntilCommit ++ [criticalReveal])).isSome = true := by
    decide +kernel
  obtain ⟨l, hl⟩ := Option.isSome_iff_exists.mp hsome
  have hpaused : (((system sampleConfig).run laterStart
      (blocksUntilCommit ++ [criticalReveal])).map fun l =>
        (l.tradingPaused, l.pausedSinceBatch)) = some (true, 10) := by
    decide +kernel
  rw [hl] at hpaused
  obtain ⟨hp, hs⟩ := Prod.mk.inj (Option.some.inj hpaused)
  exact ⟨l, hl, hp, hs, (tradingPaused_iff sampleConfig _ _ _ _ _ _ hl).1.mp hp⟩

/-- The commit of batch 9 is revealed in the pause. -/
theorem stale_reveal_in_pause :
    ∃ l r, (system sampleConfig).run laterStart blocksUntilCommit = some l ∧
      l.handle sampleConfig criticalReveal = some r ∧ r.1.tradingPaused = true ∧
      commandsOf r.2 = [.publish 0 (.reveal 10 0 laterSell laterSignature)] ∧
      Milestone.LastCommitUnpaused
        (passed sampleConfig laterStart blocksUntilCommit ++ l.milestones criticalReveal) := by
  have hafter : (((system sampleConfig).run laterStart blocksUntilCommit).bind fun l =>
      (l.handle sampleConfig criticalReveal).map fun r =>
        (r.1.tradingPaused, commandsOf r.2))
        = some (true, [.publish 0 (.reveal 10 0 laterSell laterSignature)]) := by
    decide +kernel
  obtain ⟨l, hl, hafter⟩ := Option.bind_eq_some_iff.mp hafter
  obtain ⟨r, hr, heq⟩ := Option.map_eq_some_iff.mp hafter
  obtain ⟨hpaused, hcommands⟩ := Prod.mk.inj heq
  have hpublished : .publish 0 (.reveal 10 0 laterSell laterSignature) ∈ commandsOf r.2 := by
    rw [hcommands]
    exact List.mem_singleton_self _
  have hlast := (published_before_pause sampleConfig _ _ _ _ _ _ hl hr hpublished).1
  exact ⟨l, r, hl, hr, hpaused, hcommands, hlast⟩

end

end RunLoop
