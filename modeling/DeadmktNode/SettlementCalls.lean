/-
# The calls of the settlement manager

Between two blocks nothing touches the settlement manager.  At a block that the loop does not
skip it is called in this order: expiry at a batch boundary, the registrations of SWAP, the
reports of the background worker and the settlement events of the poll.  A run of the loop takes
the manager on exactly as these calls do (`settlement_of_run`), so what they register and
confirm is all that the manager registers and confirms.
-/
import DeadmktNode.LogCursor
import DeadmktNode.OwnOrders

namespace SettlementManager

/-- The matches that some calls pass to `registerMatch`, in order. -/
def registeredBy (calls : List Input) : List Match :=
  calls.filterMap fun
    | .swap _ m => some m
    | _ => none

/-- The settlement events that some calls pass to `onSettlementConfirmed`, in order. -/
def confirmedBy (calls : List Input) : List BatchTradeSettledEvent :=
  calls.filterMap fun
    | .event _ event => some event
    | _ => none

/-- Calls one after another register one after another. -/
theorem registeredBy_append (calls calls' : List Input) :
    registeredBy (calls ++ calls') = registeredBy calls ++ registeredBy calls' :=
  List.filterMap_append

/-- The calls of SWAP register their matches. -/
theorem registeredBy_map_swap (ctx : SwapContext) (ms : List Match) :
    registeredBy (ms.map (.swap ctx)) = ms := by
  unfold registeredBy
  rw [List.filterMap_map]
  exact List.filterMap_some

/-- Other calls register nothing. -/
theorem registeredBy_eq_nil {calls : List Input} (h : ∀ ctx m, Input.swap ctx m ∉ calls) :
    registeredBy calls = [] := by
  rw [registeredBy, List.filterMap_eq_nil_iff]
  intro call hcall
  cases call with
  | swap ctx m => exact absurd hcall (h ctx m)
  | _ => rfl

/-- Calls one after another confirm one after another. -/
theorem confirmedBy_append (calls calls' : List Input) :
    confirmedBy (calls ++ calls') = confirmedBy calls ++ confirmedBy calls' :=
  List.filterMap_append

/-- Calls without events confirm nothing. -/
theorem confirmedBy_eq_nil {calls : List Input}
    (h : ∀ order event, Input.event order event ∉ calls) : confirmedBy calls = [] := by
  rw [confirmedBy, List.filterMap_eq_nil_iff]
  intro call hcall
  cases call with
  | event order event => exact absurd hcall (h order event)
  | _ => rfl

/-- A run of the manager keeps its NFT. -/
theorem ownNftId_run [HexCrate] {mgr mgr' : SettlementManager} {is : List Input}
    (h : system.run mgr is = some mgr') : mgr'.ownNftId = mgr.ownNftId := by
  induction is generalizing mgr with
  | nil =>
      obtain rfl := Option.some.inj h
      rfl
  | cons i is ih =>
      obtain ⟨mgr₁, h₁, h₂⟩ := Option.bind_eq_some_iff.mp h
      rw [ih h₂]
      exact ownNftId_step h₁

end SettlementManager

namespace RunLoop

/-! ## The settlement events of a poll -/

/-- The settlement events among chain events. -/
def settledEvents (events : List ChainEvent) : List BatchTradeSettledEvent :=
  events.filterMap fun
    | .batchTradeSettled evt => some evt
    | _ => none

/-- The settlement events of a poll, with the iteration orders of the pending map. -/
def settledCalls (events : List (ChainEvent × List String)) :
    List (BatchTradeSettledEvent × List String) :=
  events.filterMap fun
    | (.batchTradeSettled evt, order) => some (evt, order)
    | _ => none

/-- The settlement manager is called once for every settlement event. -/
theorem map_fst_settledCalls (events : List (ChainEvent × List String)) :
    (settledCalls events).map Prod.fst = settledEvents (events.map Prod.fst) := by
  unfold settledCalls settledEvents
  rw [List.map_filterMap, List.filterMap_map]
  congr 1
  funext event
  obtain ⟨event, order⟩ := event
  cases event <;> rfl

section

variable [Externals]

/-! ## What the manager is called with -/

/-- Does the loop ask for events at this block? -/
def Polls (l : RunLoop) (obs : Observation) : Prop :=
  (l.lastBlock < obs.block ∧ ¬ (l.Transition obs ∧ l.Behind obs)) ∧ l.lastEventBlock < obs.block

instance (l : RunLoop) (obs : Observation) : Decidable (l.Polls obs) :=
  inferInstanceAs (Decidable (_ ∧ _))

/-- Expiry, at the boundary of a batch. -/
def expireCalls (l : RunLoop) (obs : Observation) : List SettlementManager.Input :=
  if l.newBatchId obs ≠ l.lastBatchId then [.expire (l.newBatchId obs)] else []

/-- The registrations of SWAP. -/
def swapCalls (cfg : RunConfig) (l : RunLoop) (obs : Observation) :
    List SettlementManager.Input :=
  if l.RunsHandler obs ∧ l.newPhase obs = .swap ∧ cfg.hasSubmitter = true then
    (l.ready cfg obs).core.currentMatches.map (.swap ((l.ready cfg obs).swapContext cfg obs))
  else []

/-- The settlement events of a poll. -/
def pollCalls (l : RunLoop) (obs : Observation) : List SettlementManager.Input :=
  if l.lastEventBlock < obs.block then
    (settledCalls (obs.events.getD [])).map fun call => .event call.2 call.1
  else []

/-- What the settlement manager is called with, in the order of the calls. -/
def settlementCalls (cfg : RunConfig) (l : RunLoop) : Input → List SettlementManager.Input
  | .gossip _ => []
  | .block obs =>
      if l.lastBlock < obs.block ∧ ¬ (l.Transition obs ∧ l.Behind obs) then
        (l.expireCalls obs ++ l.swapCalls cfg obs)
          ++ (obs.results.map (.report obs.block) ++ l.pollCalls obs)
      else []

/-- The calls of a run. -/
def settlementCallsIn (cfg : RunConfig) (l : RunLoop) (is : List Input) :
    List SettlementManager.Input :=
  (system cfg).taken (settlementCalls cfg) l is

/-! ## One stage after the other -/

variable {cfg : RunConfig} {l l' : RunLoop} {obs : Observation}

omit [Externals] in
/-- The connection of the strategy is no matter of the manager. -/
theorem settlement_trackConnection (l : RunLoop) (connectedNow : Bool) :
    (l.trackConnection connectedNow).settlement = l.settlement := by
  unfold trackConnection
  dsimp only
  split_ifs <;> rfl

/-- Neither is a block that arrives. -/
theorem settlement_arrive (l : RunLoop) (obs : Observation) :
    (l.arrive obs).settlement = l.settlement :=
  (l.drain obs.buffered).settlement_trackConnection obs.strategyConnected

/-- At a boundary the manager expires old matches, with the new batch. -/
theorem settlement_boundary (cfg : RunConfig) (l : RunLoop) (obs : Observation)
    (newBatchId : UInt64) :
    (l.boundary cfg obs newBatchId).1.settlement = l.settlement.expireStale newBatchId 100 := by
  have hrefetch : ∀ l : RunLoop, (l.refetch obs).settlement = l.settlement := by
    intro l
    unfold refetch
    cases obs.newNumPools with
    | none => rfl
    | some newNumPools =>
        dsimp only
        split_ifs <;> rfl
  have hgas : ∀ l : RunLoop, (l.refreshGas obs newBatchId).settlement = l.settlement := by
    intro l
    unfold refreshGas
    split_ifs
    · cases obs.newGasBalance <;> rfl
    · rfl
  have hpool : ∀ l : RunLoop, (l.reassignPool cfg obs newBatchId).1.settlement = l.settlement := by
    intro l
    unfold reassignPool
    dsimp only
    split_ifs <;> rfl
  have hpause : ∀ l : RunLoop, (l.updatePause newBatchId).settlement = l.settlement := by
    intro l
    unfold updatePause
    split_ifs <;> rfl
  unfold boundary
  dsimp only
  rw [hpause, hpool]
  dsimp only
  rw [hgas, hrefetch]

/-- Before the handler runs, old matches may expire. -/
theorem settlement_atHandler (cfg : RunConfig) (l : RunLoop) (obs : Observation) :
    SettlementManager.system.run l.settlement (l.expireCalls obs)
      = some (l.atHandler cfg obs).1.settlement := by
  unfold expireCalls atHandler
  split_ifs
  · rw [settlement_boundary, settlement_arrive]
    rfl
  · rw [settlement_arrive]
    rfl

/-- The matches that SWAP takes are registered one after another. -/
theorem settlement_swapPhase {r : RunLoop × List LoopOutput} (h : l.swapPhase cfg obs = some r) :
    SettlementManager.system.run l.settlement
        ((if cfg.hasSubmitter then (l.drain obs.late).core.currentMatches else []).map
          (.swap (l.swapContext cfg obs))) = some r.1.settlement := by
  rcases swapPhase_cases h with ⟨hsub, p, hp, rfl⟩ | ⟨hnil, rfl⟩
  · rw [if_pos hsub, ← SettlementManager.swapMatches_eq_run]
    exact Option.map_eq_some_iff.mpr ⟨p, hp, rfl⟩
  · split_ifs with hsub
    · rw [hnil hsub]
      rfl
    · rfl

/-- Only SWAP calls the manager. -/
theorem settlement_phaseHandler {newBatchId : UInt64} {newPhase : Phase}
    {r : RunLoop × List LoopOutput} (h : l.phaseHandler cfg obs newBatchId newPhase = some r)
    (hne : newPhase ≠ .swap) : r.1.settlement = l.settlement := by
  cases newPhase with
  | commit =>
      obtain ⟨orders, -, rfl⟩ := Option.map_eq_some_iff.mp h
      show ((l.drain obs.late).enterFirstBatch).settlement = _
      unfold enterFirstBatch
      split_ifs
      · split <;> rfl
      · rfl
  | reveal =>
      obtain rfl := Option.some.inj h
      rfl
  | «match» =>
      obtain rfl := Option.some.inj h
      rfl
  | swap => exact absurd rfl hne

/-- The handler of a block makes the calls of SWAP. -/
theorem settlement_handler {r : RunLoop × List LoopOutput} (hruns : l.RunsHandler obs)
    (h : (l.atHandler cfg obs).1.phaseHandler cfg obs (l.newBatchId obs) (l.newPhase obs)
      = some r) :
    SettlementManager.system.run (l.atHandler cfg obs).1.settlement (l.swapCalls cfg obs)
      = some r.1.settlement := by
  unfold swapCalls
  by_cases hswap : l.newPhase obs = .swap
  · rw [hswap] at h
    have hcalls := settlement_swapPhase h
    cases hsub : cfg.hasSubmitter with
    | true =>
        rw [hsub] at hcalls
        rw [if_pos ⟨hruns, hswap, rfl⟩]
        exact hcalls
    | false =>
        rw [hsub] at hcalls
        rw [if_neg fun hall => Bool.false_ne_true hall.2.2]
        exact hcalls
  · rw [if_neg fun hall => hswap hall.2.1, settlement_phaseHandler h hswap]
    rfl

/-- The reports are handed over one after another. -/
theorem settlement_reports (block newBatchId : UInt64) (results : List SettleResult)
    (l : RunLoop) :
    SettlementManager.system.run l.settlement (results.map (.report block))
      = some (results.foldl (drainReport block newBatchId) l).settlement := by
  induction results generalizing l with
  | nil => rfl
  | cons result results ih => exact ih (drainReport block newBatchId l result)

/-- So are the settlement events of a poll. -/
theorem settlement_pollEvents (l : RunLoop) (obs : Observation) :
    SettlementManager.system.run l.settlement (l.pollCalls obs)
      = some (l.pollEvents obs).settlement := by
  have hfold : ∀ (events : List (ChainEvent × List String)) (l : RunLoop),
      SettlementManager.system.run l.settlement
          ((settledCalls events).map fun call => .event call.2 call.1)
        = some (events.foldl handleEvent l).settlement := by
    intro events
    induction events with
    | nil => intro l; rfl
    | cons event events ih =>
        intro l
        rw [List.foldl_cons, ← ih]
        obtain ⟨event, order⟩ := event
        cases event <;> rfl
  unfold pollCalls pollEvents
  split_ifs
  · exact hfold _ l
  · rfl

/-- The end of a block: the reports, then the poll. -/
theorem settlement_finish (newPhase : Phase) (newBatchId : UInt64) (r : RunLoop × List LoopOutput)
    (hcursor : r.1.lastEventBlock = l.lastEventBlock) :
    SettlementManager.system.run r.1.settlement
        (obs.results.map (.report obs.block) ++ l.pollCalls obs)
      = some (finish obs newPhase newBatchId r).1.settlement := by
  have hsame : (obs.results.foldl (drainReport obs.block newBatchId) r.1).lastEventBlock
      = l.lastEventBlock := by
    rw [← hcursor]
    exact congrArg Core.lastEventBlock
      (foldl_preserves (V := core) (core_drainReport obs.block newBatchId) obs.results r.1)
  have hpoll := settlement_pollEvents
    (obs.results.foldl (drainReport obs.block newBatchId) r.1) obs
  rw [pollCalls, hsame] at hpoll
  rw [System.run_append, settlement_reports obs.block newBatchId, Option.bind_some, pollCalls]
  exact hpoll

/-! ## Steps and runs -/

/-- A block that is skipped, or not new, calls nothing. -/
theorem settlementCalls_block :
    settlementCalls cfg l (.block obs)
      = if l.lastBlock < obs.block ∧ ¬ (l.Transition obs ∧ l.Behind obs) then
          (l.expireCalls obs ++ l.swapCalls cfg obs)
            ++ (obs.results.map (.report obs.block) ++ l.pollCalls obs)
        else [] := rfl

/-- **Step.**  An input takes the manager on as it is called. -/
theorem settlement_step {i : Input} (h : step cfg l i = some l') :
    SettlementManager.system.run l.settlement (l.settlementCalls cfg i) = some l'.settlement := by
  obtain ⟨r, hr, rfl⟩ := Option.map_eq_some_iff.mp h
  cases handle_cases hr with
  | gossip msg => rfl
  | old obs hold =>
      rw [settlementCalls_block, if_neg fun hreach => UInt64.not_lt.mpr hold hreach.1]
      rfl
  | skipped obs hnew htrans hbehind =>
      rw [settlementCalls_block, if_neg fun hreach => hreach.2 ⟨htrans, hbehind⟩]
      exact congrArg some (l.settlement_arrive obs).symm
  | quiet obs hnew hquiet =>
      have hreach : l.lastBlock < obs.block ∧ ¬ (l.Transition obs ∧ l.Behind obs) :=
        ⟨hnew, fun hskip => hquiet hskip.1⟩
      have hbatch : l.expireCalls obs = [] := if_neg fun hne => hquiet (.inr hne)
      have hswap : l.swapCalls cfg obs = [] := if_neg fun hall => hquiet hall.1.2.1
      have hcursor : (l.arrive obs).lastEventBlock = l.lastEventBlock :=
        congrArg Core.lastEventBlock (l.core_arrive obs)
      rw [settlementCalls_block, if_pos hreach, hbatch, hswap, ← l.settlement_arrive obs]
      exact settlement_finish _ _ (l.arrive obs, []) hcursor
  | handled obs r₀ hruns hr₀ =>
      have hreach : l.lastBlock < obs.block ∧ ¬ (l.Transition obs ∧ l.Behind obs) :=
        ⟨hruns.1, fun hskip => hruns.2.2 hskip.2⟩
      have hcursor : r₀.1.lastEventBlock = l.lastEventBlock := by
        obtain ⟨commits, orders, found, hcore⟩ := core_phaseHandler hr₀
        have hlast : r₀.1.lastEventBlock = (l.atHandler cfg obs).1.lastEventBlock :=
          congrArg Core.lastEventBlock hcore
        exact hlast.trans (l.bridge_atHandler cfg obs).2.2.2
      rw [settlementCalls_block, if_pos hreach, System.run_append, System.run_append,
        l.settlement_atHandler cfg, Option.bind_some, settlement_handler hruns hr₀,
        Option.bind_some]
      exact settlement_finish _ _ (r₀.1, (l.atHandler cfg obs).2 ++ r₀.2) hcursor

/-- **Run.**  A run of the loop is a run of the settlement manager on its calls. -/
theorem settlement_of_run {is : List Input} (hrun : (system cfg).run l is = some l') :
    SettlementManager.system.run l.settlement (settlementCallsIn cfg l is)
      = some l'.settlement :=
  (system cfg).run_taken SettlementManager.system RunLoop.settlement (settlementCalls cfg)
    (fun _ _ _ hstep => settlement_step hstep) hrun

/-! ## What is registered and what is confirmed -/

/-- What an input registers: the stored matches, at SWAP. -/
theorem registeredBy_settlementCalls (cfg : RunConfig) (l : RunLoop) (obs : Observation) :
    SettlementManager.registeredBy (l.settlementCalls cfg (.block obs))
      = if l.RunsHandler obs ∧ l.newPhase obs = .swap ∧ cfg.hasSubmitter = true then
          (l.ready cfg obs).core.currentMatches
        else [] := by
  -- expiry, reports and events register nothing
  have hexpire : SettlementManager.registeredBy (l.expireCalls obs) = [] := by
    unfold expireCalls
    split_ifs <;> rfl
  have hreports : SettlementManager.registeredBy (obs.results.map (.report obs.block)) = [] :=
    SettlementManager.registeredBy_eq_nil fun ctx m => by simp
  have hpoll : SettlementManager.registeredBy (l.pollCalls obs) = [] := by
    refine SettlementManager.registeredBy_eq_nil fun ctx m => ?_
    unfold pollCalls
    split_ifs <;> simp
  have hswap : SettlementManager.registeredBy (l.swapCalls cfg obs)
      = if l.RunsHandler obs ∧ l.newPhase obs = .swap ∧ cfg.hasSubmitter = true then
          (l.ready cfg obs).core.currentMatches
        else [] := by
    unfold swapCalls
    split_ifs
    · exact SettlementManager.registeredBy_map_swap _ _
    · rfl
  rw [settlementCalls_block]
  split_ifs with hreach hall hall
  · rw [SettlementManager.registeredBy_append, SettlementManager.registeredBy_append,
      SettlementManager.registeredBy_append, hexpire, hswap, hreports, hpoll, if_pos hall]
    simp
  · rw [SettlementManager.registeredBy_append, SettlementManager.registeredBy_append,
      SettlementManager.registeredBy_append, hexpire, hswap, hreports, hpoll, if_neg hall]
    rfl
  · exact absurd ⟨hall.1.1, fun hskip => hall.1.2.2 hskip.2⟩ hreach
  · rfl

/-- What an input confirms: the settlement events of its poll, if it polls. -/
theorem confirmedBy_settlementCalls (cfg : RunConfig) (l : RunLoop) (obs : Observation) :
    SettlementManager.confirmedBy (l.settlementCalls cfg (.block obs))
      = if l.Polls obs then settledEvents ((obs.events.getD []).map Prod.fst) else [] := by
  -- expiry, SWAP and reports confirm nothing
  have hexpire : SettlementManager.confirmedBy (l.expireCalls obs) = [] := by
    unfold expireCalls
    split_ifs <;> rfl
  have hswap : SettlementManager.confirmedBy (l.swapCalls cfg obs) = [] := by
    refine SettlementManager.confirmedBy_eq_nil fun order event => ?_
    unfold swapCalls
    split_ifs <;> simp
  have hreports : SettlementManager.confirmedBy (obs.results.map (.report obs.block)) = [] :=
    SettlementManager.confirmedBy_eq_nil fun order event => by simp
  -- the events are polled last
  have hpoll : SettlementManager.confirmedBy (l.pollCalls obs)
      = if l.lastEventBlock < obs.block then
          settledEvents ((obs.events.getD []).map Prod.fst) else [] := by
    unfold pollCalls
    split_ifs
    · rw [← map_fst_settledCalls, SettlementManager.confirmedBy, List.filterMap_map]
      exact congrFun List.filterMap_eq_map _
    · rfl
  rw [settlementCalls_block]
  by_cases hreach : l.lastBlock < obs.block ∧ ¬ (l.Transition obs ∧ l.Behind obs)
  · rw [if_pos hreach, SettlementManager.confirmedBy_append,
      SettlementManager.confirmedBy_append, SettlementManager.confirmedBy_append, hexpire,
      hswap, hreports, hpoll]
    by_cases hnew : l.lastEventBlock < obs.block
    · rw [if_pos hnew, if_pos ⟨hreach, hnew⟩]
      rfl
    · rw [if_neg hnew, if_neg fun hpolls => hnew hpolls.2]
      rfl
  · rw [if_neg hreach, if_neg fun hpolls => hreach hpolls.1]
    rfl

end

end RunLoop
