/-
# The event poll

At the end of a block the loop asks the chain for the settlement events since the last poll,
at most 50 of them, and hands them to the settlement manager.  Then it moves its cursor to
the block, whether the request failed or not.  The manager is called with an event once if the
request that asks for its block is answered and has room for it, and never otherwise: the
events of a failed request and those after the fiftieth are lost.  Skipped blocks cost nothing,
since skipping ahead leaves the cursor where it is.
-/
import DeadmktNode.PendingInStep
import DeadmktNode.SettlementCalls

namespace RunLoop

section

variable [Externals]

/-! ## Polls -/

/-- The settlement events that an input hands to the settlement manager. -/
def handedOver (cfg : RunConfig) (l : RunLoop) (i : Input) : List BatchTradeSettledEvent :=
  SettlementManager.confirmedBy (l.settlementCalls cfg i)

/-- The cursor after an input: a poll moves it to its block. -/
def cursorAfter (l : RunLoop) : Input → UInt64
  | .gossip _ => l.lastEventBlock
  | .block obs => if l.Polls obs then obs.block else l.lastEventBlock

/-- **Step.**  Nothing but a poll moves the cursor. -/
theorem lastEventBlock_step {cfg : RunConfig} {l l' : RunLoop} {i : Input}
    (h : step cfg l i = some l') : l'.lastEventBlock = l.cursorAfter i := by
  have hcursor : ∀ {c : Core}, l'.core = c → l'.lastEventBlock = c.lastEventBlock := by
    rintro c rfl
    rfl
  -- a block whose handler runs, or that needs none, ends with a poll
  have hfinish : ∀ {obs : Observation} {c : Core},
      l.lastBlock < obs.block ∧ ¬ (l.Transition obs ∧ l.Behind obs) →
      c.lastEventBlock = l.lastEventBlock → l'.core = c.finish obs →
      l'.lastEventBlock = if l.Polls obs then obs.block else l.lastEventBlock := by
    intro obs c hreach hc hcore
    rw [hcursor hcore]
    show (if c.lastEventBlock < obs.block then obs.block else c.lastEventBlock) = _
    rw [hc]
    by_cases hnew : l.lastEventBlock < obs.block
    · rw [if_pos hnew, if_pos ⟨hreach, hnew⟩]
    · rw [if_neg hnew, if_neg (fun hpolls => hnew hpolls.2)]
  cases step_core h with
  | gossip msg hcore => exact hcursor hcore
  | old obs hold hcore =>
      rw [cursorAfter, if_neg fun hpolls => UInt64.not_lt.mpr hold hpolls.1.1]
      exact hcursor hcore
  | skipped obs htrans hbehind hcore =>
      rw [cursorAfter, if_neg fun hpolls => hpolls.1.2 ⟨htrans, hbehind⟩]
      exact hcursor hcore
  | quiet obs hnew hquiet hcore =>
      have hreach : l.lastBlock < obs.block ∧ ¬ (l.Transition obs ∧ l.Behind obs) :=
        ⟨hnew, fun hskip => hquiet hskip.1⟩
      exact hfinish (c := l.core.advance obs.block) hreach rfl hcore
  | handled obs r hruns hr hcore =>
      have hreach : l.lastBlock < obs.block ∧ ¬ (l.Transition obs ∧ l.Behind obs) :=
        ⟨hruns.1, fun hskip => hruns.2.2 hskip.2⟩
      obtain ⟨commits, orders, found, hr⟩ := core_phaseHandler hr
      obtain ⟨-, -, -, hlast⟩ := l.bridge_atHandler cfg obs
      refine hfinish (c := r.1.core) hreach ?_ hcore
      rw [hr]
      exact hlast

/-! ## The endpoint -/

/-- The number of events that a poll asks for. -/
def eventLimit : ℕ := 50

/-- The chain: the settlement events of every block. -/
abbrev SettledAt := ℕ → List BatchTradeSettledEvent

/-- The answer of the events endpoint: the first events of the range, both ends included. -/
def firstEvents (chain : SettledAt) (startHeight endHeight : UInt64) (limit : ℕ) :
    List BatchTradeSettledEvent :=
  (Log.inclusive chain startHeight.toNat endHeight.toNat).take limit

/-- A poll that is answered is answered by the endpoint. -/
def Answered (chain : SettledAt) (l : RunLoop) : Input → Prop
  | .gossip _ => True
  | .block obs => l.Polls obs → ∀ events, obs.events = some events →
      events.map Prod.fst
        = (firstEvents chain (l.lastEventBlock + 1) obs.block eventLimit).map
            ChainEvent.batchTradeSettled

/-- The settlement events of the blocks that a poll asks for. -/
def askedFor (chain : SettledAt) (l : RunLoop) (obs : Observation) :
    List BatchTradeSettledEvent :=
  Log.between chain l.lastEventBlock.toNat obs.block.toNat

/-- A poll loses nothing: if it fails there was no event to get, and if it is answered there
were at most 50. -/
def LosesNothing (chain : SettledAt) (l : RunLoop) : Input → Prop
  | .gossip _ => True
  | .block obs => l.Polls obs →
      if obs.events.isNone then l.askedFor chain obs = []
      else (l.askedFor chain obs).length ≤ eventLimit

/-- A poll fails, if there is one. -/
def PollFails (l : RunLoop) : Input → Prop
  | .gossip _ => True
  | .block obs => l.Polls obs → obs.events = none

/-! ## Runs -/

section

variable {chain : SettledAt} {cfg : RunConfig} {l : RunLoop}

omit [Externals] in
/-- Settlement events are all settlement events. -/
theorem settledEvents_map (events : List BatchTradeSettledEvent) :
    settledEvents (events.map ChainEvent.batchTradeSettled) = events := by
  unfold settledEvents
  rw [List.filterMap_map]
  exact List.filterMap_some

/-- What an answered poll hands over. -/
theorem handedOver_of_answered {obs : Observation} (hanswered : l.Answered chain (.block obs))
    (hpolls : l.Polls obs) :
    handedOver cfg l (.block obs)
      = if obs.events.isNone then [] else (l.askedFor chain obs).take eventLimit := by
  rw [handedOver, confirmedBy_settlementCalls, if_pos hpolls]
  cases hevents : obs.events with
  | none => rfl
  | some events =>
      have hstart : (l.lastEventBlock + 1).toNat = l.lastEventBlock.toNat + 1 := by
        have hlt := UInt64.lt_iff_toNat_lt.mp hpolls.2
        have hbound := obs.block.toNat_lt
        rw [UInt64.toNat_add, UInt64.toNat_one, Nat.mod_eq_of_lt (by omega)]
      rw [Option.getD_some, hanswered hpolls events hevents, settledEvents_map, firstEvents, hstart]
      rfl

/-- A step takes some of the events of the blocks that its cursor passes. -/
theorem reads_of_answered {i : Input} (hanswered : l.Answered chain i) :
    (system cfg).Reads chain (fun l => l.lastEventBlock.toNat) (handedOver cfg) l i := by
  intro l' hstep
  dsimp only
  rw [lastEventBlock_step hstep]
  cases i with
  | gossip msg =>
      rw [cursorAfter, Log.between_self]
      exact ⟨le_refl _, List.Sublist.refl _⟩
  | block obs =>
      by_cases hpolls : l.Polls obs
      · rw [cursorAfter, if_pos hpolls, handedOver_of_answered hanswered hpolls]
        refine ⟨Nat.le_of_lt (UInt64.lt_iff_toNat_lt.mp hpolls.2), ?_⟩
        split_ifs
        · exact List.nil_sublist _
        · exact List.take_sublist _ _
      · rw [cursorAfter, if_neg hpolls, handedOver, confirmedBy_settlementCalls, if_neg hpolls,
          Log.between_self]
        exact ⟨le_refl _, List.Sublist.refl _⟩

/-- A step takes all of them if and only if its poll loses nothing. -/
theorem readsAll_iff {i : Input} (hanswered : l.Answered chain i)
    (hruns : ∃ l', step cfg l i = some l') :
    (system cfg).ReadsAll chain (fun l => l.lastEventBlock.toNat) (handedOver cfg) l i
      ↔ l.LosesNothing chain i := by
  obtain ⟨l', hstep⟩ := hruns
  have hall : (system cfg).ReadsAll chain (fun l => l.lastEventBlock.toNat) (handedOver cfg) l i
      ↔ handedOver cfg l i = Log.between chain l.lastEventBlock.toNat l'.lastEventBlock.toNat := by
    constructor
    · intro h
      exact h l' hstep
    · intro h l₁ h₁
      obtain rfl := Option.some.inj (hstep.symm.trans h₁)
      exact h
  rw [hall, lastEventBlock_step hstep]
  cases i with
  | gossip msg =>
      rw [cursorAfter, Log.between_self]
      exact iff_of_true rfl trivial
  | block obs =>
      by_cases hpolls : l.Polls obs
      · rw [cursorAfter, if_pos hpolls, handedOver_of_answered hanswered hpolls]
        have hloses : l.LosesNothing chain (.block obs)
            ↔ if obs.events.isNone then l.askedFor chain obs = []
              else (l.askedFor chain obs).length ≤ eventLimit :=
          ⟨fun h => h hpolls, fun h _ => h⟩
        rw [hloses]
        -- a failed request hands over nothing, an answered one the first of its events
        split_ifs
        · exact eq_comm
        · exact List.take_eq_self_iff _
      · rw [cursorAfter, if_neg hpolls, handedOver, confirmedBy_settlementCalls, if_neg hpolls,
          Log.between_self]
        exact iff_of_true rfl fun hp => absurd hp hpolls

/-- The events with which a run calls the settlement manager, poll by poll. -/
theorem confirmedBy_settlementCallsIn (cfg : RunConfig) (l : RunLoop) (is : List Input) :
    SettlementManager.confirmedBy (settlementCallsIn cfg l is)
      = (system cfg).taken (handedOver cfg) l is :=
  (system cfg).filterMap_taken _ _ l is

/-- After a poll at a block the cursor is there. -/
theorem lastEventBlock_of_poll {l₁ : RunLoop} {is : List Input} {obs : Observation}
    (hrun : (system cfg).run l (is ++ [.block obs]) = some l₁)
    (hpolls : ∀ l', (system cfg).run l is = some l' → l'.Polls obs) :
    l₁.lastEventBlock = obs.block := by
  rw [System.run_append] at hrun
  obtain ⟨l', hl', hlast⟩ := Option.bind_eq_some_iff.mp hrun
  obtain ⟨l'', hstep, heq⟩ := Option.bind_eq_some_iff.mp hlast
  obtain rfl := Option.some.inj heq
  rw [lastEventBlock_step hstep, cursorAfter, if_pos (hpolls l' hl')]

/-- Polls that fail hand nothing over. -/
theorem taken_of_pollFails {l' : RunLoop} {is : List Input}
    (hrun : (system cfg).run l is = some l') (hfails : (system cfg).Follows PollFails l is) :
    (system cfg).taken (handedOver cfg) l is = [] := by
  refine System.taken_eq_nil _ _ ?_ (by rw [hrun]; rfl)
  refine (system cfg).follows_of_invariant (C := PollFails) (I := fun _ => True)
    (fun _ _ _ _ _ _ => trivial) (fun s i _ hfail => ?_) trivial hfails
  cases i with
  | gossip msg => rfl
  | block obs =>
      rw [handedOver, confirmedBy_settlementCalls]
      split_ifs with hp
      · rw [hfail hp]
        rfl
      · rfl

/-- **No event lost or handled twice.**  A run takes the settlement manager on by its calls.
After a poll at a block, and as long as the later polls fail, these have passed every settlement
event from the start of the run to this block to `onSettlementConfirmed` exactly once, if and
only if no poll up to it lost an event: a failed poll had none to get, and an answered one at
most 50. -/
theorem settled_events_once_iff {l₁ l₂ : RunLoop} {is js : List Input} {obs : Observation}
    (hanswered : (system cfg).Follows (Answered chain) l (is ++ [.block obs]))
    (hrun : (system cfg).run l (is ++ [.block obs]) = some l₁)
    (hpolls : ∀ l', (system cfg).run l is = some l' → l'.Polls obs)
    (hlater : (system cfg).run l₁ js = some l₂)
    (hfails : (system cfg).Follows PollFails l₁ js) :
    SettlementManager.system.run l.settlement (settlementCallsIn cfg l (is ++ .block obs :: js))
        = some l₂.settlement ∧
      ((SettlementManager.confirmedBy
          (settlementCallsIn cfg l (is ++ .block obs :: js))).Perm
          (Log.between chain l.lastEventBlock.toNat obs.block.toNat)
        ↔ (system cfg).Follows (LosesNothing chain) l (is ++ [.block obs])) := by
  have hwhole : (system cfg).run l (is ++ .block obs :: js) = some l₂ := by
    rw [List.append_cons, System.run_append, hrun]
    exact hlater
  refine ⟨settlement_of_run hwhole, ?_⟩
  have hreads : (system cfg).Follows
      ((system cfg).Reads chain (fun l => l.lastEventBlock.toNat) (handedOver cfg)) l
      (is ++ [.block obs]) :=
    (system cfg).follows_of_invariant (C := Answered chain) (I := fun _ => True)
      (fun _ _ _ _ _ _ => trivial) (fun _ _ _ h => reads_of_answered h) trivial hanswered
  have htaken : SettlementManager.confirmedBy (settlementCallsIn cfg l (is ++ .block obs :: js))
      = (system cfg).taken (handedOver cfg) l (is ++ [.block obs]) := by
    rw [confirmedBy_settlementCallsIn, List.append_cons, System.taken_append _ _ hrun,
      taken_of_pollFails hlater hfails, List.append_nil]
  rw [htaken, ← lastEventBlock_of_poll hrun hpolls]
  rw [(system cfg).taken_perm_iff chain (fun l => l.lastEventBlock.toNat) (handedOver cfg)
    hreads hrun]
  exact System.follows_congr _ hanswered hrun fun l' i hans hstep => readsAll_iff hans hstep

end

end

/-! ### One event -/

section

attribute [local instance] sampleExternals

/-- A chain on which the two sample orders settle at block 106. -/
def settlesAt106 : SettledAt := fun height =>
  if height = 106 then [SettlementManager.sampleSettled] else []

/-- Block 106 with the answer of the endpoint. -/
def answeredBlock : Observation :=
  { silentBlock 106 with events := some [(.batchTradeSettled SettlementManager.sampleSettled, [])] }

/-- Block 107, at which the endpoint answers that there is nothing new. -/
def emptyBlock : Observation := { silentBlock 107 with events := some [] }

/-- The poll at block 106 succeeds: the settlement manager is called with its event once. -/
theorem answered_poll_hands_over :
    (SettlementManager.confirmedBy
        (settlementCallsIn sampleConfig sampleLoop [.block answeredBlock])).Perm
      (Log.between settlesAt106 sampleLoop.lastEventBlock.toNat answeredBlock.block.toNat) := by
  have hanswered : (system sampleConfig).Follows (Answered settlesAt106) sampleLoop
      [.block answeredBlock] := by
    refine ⟨fun _ events hevents => ?_, fun _ _ => trivial⟩
    obtain rfl := Option.some.inj hevents
    decide +kernel
  have hrun : (system sampleConfig).run sampleLoop [.block answeredBlock]
      = some (((system sampleConfig).run sampleLoop [.block answeredBlock]).getD sampleLoop) :=
    System.run_eq_some_getD _ (by decide +kernel)
  have hpolls : sampleLoop.Polls answeredBlock := by decide +kernel
  have hfirst : ∀ l', (system sampleConfig).run sampleLoop [] = some l' →
      l'.Polls answeredBlock := by
    intro l' hl'
    obtain rfl := Option.some.inj hl'
    exact hpolls
  refine (@settled_events_once_iff _ settlesAt106 sampleConfig sampleLoop _ _ [] [] answeredBlock
    hanswered hrun hfirst rfl trivial).2.mpr ?_
  exact ⟨fun _ => by decide +kernel, fun _ _ => trivial⟩

/-- The poll at block 106 fails and the next one succeeds: the settlement manager is never called
with the event. -/
theorem failed_poll_loses_event :
    ¬ ∀ (chain : SettledAt) (cfg : RunConfig) (l l₁ l₂ : RunLoop) (is js : List Input)
      (obs : Observation),
      (system cfg).Follows (Answered chain) l (is ++ [.block obs]) →
      (system cfg).run l (is ++ [.block obs]) = some l₁ →
      (∀ l', (system cfg).run l is = some l' → l'.Polls obs) → obs.events.isSome →
      (system cfg).run l₁ js = some l₂ → (system cfg).Follows PollFails l₁ js →
      (SettlementManager.confirmedBy
          (settlementCallsIn cfg l (is ++ .block obs :: js))).Perm
        (Log.between chain l.lastEventBlock.toNat obs.block.toNat) := by
  intro h
  have hpolls : sampleLoop.Polls (silentBlock 106) := by decide +kernel
  -- the failed poll moves the cursor to block 106
  have hcursor : ∀ l, step sampleConfig sampleLoop (.block (silentBlock 106)) = some l →
      l.lastEventBlock = 106 := by
    intro l hl
    rw [lastEventBlock_step hl, cursorAfter, if_pos hpolls]
    rfl
  have hanswered : (system sampleConfig).Follows (Answered settlesAt106) sampleLoop
      [.block (silentBlock 106), .block emptyBlock] := by
    refine ⟨fun _ events hevents => ?_,
      fun l hl => ⟨fun _ events hevents => ?_, fun _ _ => trivial⟩⟩
    · cases hevents
    · obtain rfl := Option.some.inj hevents
      rw [hcursor l hl]
      decide +kernel
  have hrun : (system sampleConfig).run sampleLoop
        [.block (silentBlock 106), .block emptyBlock]
      = some (((system sampleConfig).run sampleLoop
          [.block (silentBlock 106), .block emptyBlock]).getD sampleLoop) :=
    System.run_eq_some_getD _ (by decide +kernel)
  have hnext : ∀ l', (system sampleConfig).run sampleLoop [.block (silentBlock 106)] = some l' →
      l'.Polls emptyBlock := by
    have hchecked : ((system sampleConfig).run sampleLoop [.block (silentBlock 106)]).all
        (fun l' => decide (l'.Polls emptyBlock)) = true := by decide +kernel
    intro l' hl'
    rw [hl'] at hchecked
    exact of_decide_eq_true hchecked
  have hperm := h settlesAt106 sampleConfig sampleLoop _ _ [.block (silentBlock 106)] []
    emptyBlock hanswered hrun hnext rfl rfl trivial
  have hlength := hperm.length_eq
  revert hlength
  decide +kernel

end

end RunLoop
