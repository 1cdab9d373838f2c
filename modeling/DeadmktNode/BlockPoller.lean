/-
# The block poller

A background task polls the block height and tells its consumer of new batches and phases.  The
consumer knows the clock only from these events: it takes a new batch to be in COMMIT, and a
change of phase as announced.  The poller remembers the phase in which a new batch was first seen
but does not announce it, so the consumer keeps in step with the chain exactly as long as every new
batch is first seen in COMMIT (`consumer_in_step_iff`).
-/
import DeadmktNode.BatchClock
import DeadmktNode.Runs
import Mathlib.Data.List.Chain
import Mathlib.Data.List.ReduceOption

inductive PollerEvent where
  | phaseChanged (batchId : UInt64) (phase : Phase) (blockHeight : UInt64)
  | newBatch (batchId blockHeight : UInt64)
  | pauseDetected
deriving DecidableEq, Repr

structure PollerState where
  lastBlock : UInt64
  lastBatchId : UInt64
  lastPhase : Phase
  stallCount : UInt32
deriving DecidableEq, Repr

/-- The arguments of the poller.  A limit of `0` polls is no limit. -/
structure BlockPoller where
  epoch : BatchEpoch
  params : BatchParams
  stallThreshold : UInt32
  maxPolls : UInt64

namespace BlockPoller

/-! ## The loop -/

/-- Batch and phase of a block. -/
def clock (p : BlockPoller) (blockHeight : UInt64) : UInt64 × Phase :=
  (computeBatchId blockHeight p.epoch p.params, computePhase blockHeight p.epoch p.params)

/-- The state after the first poll.  The poller ends if that one fails, and it panics if a batch
has no blocks. -/
def initialState (p : BlockPoller) (ledger : Option UInt64) : Option PollerState :=
  ledger.bind fun blockHeight =>
    if p.params.blocksPerBatch = 0 then none
    else
      some { lastBlock := blockHeight
             lastBatchId := computeBatchId blockHeight p.epoch p.params
             lastPhase := computePhase blockHeight p.epoch p.params
             stallCount := 0 }

/-- A later poll, which found a block height or failed, with the event that it sends. -/
def poll (p : BlockPoller) (s : PollerState) : Option UInt64 → PollerState × Option PollerEvent
  | none =>
      let s := { s with stallCount := s.stallCount + 1 }
      (s, if p.stallThreshold ≤ s.stallCount then some .pauseDetected else none)
  | some blockHeight =>
      let s := { s with stallCount := 0 }
      if blockHeight ≤ s.lastBlock then (s, none)
      else
        let newBatchId := computeBatchId blockHeight p.epoch p.params
        let newPhase := computePhase blockHeight p.epoch p.params
        if newBatchId ≠ s.lastBatchId then
          ({ s with lastBatchId := newBatchId, lastPhase := newPhase, lastBlock := blockHeight },
            some (.newBatch newBatchId blockHeight))
        else if newPhase ≠ s.lastPhase then
          ({ s with lastPhase := newPhase, lastBlock := blockHeight },
            some (.phaseChanged newBatchId newPhase blockHeight))
        else ({ s with lastBlock := blockHeight }, none)

/-- The number of polls with the next one.  They are counted only under a limit. -/
def nextPoll (p : BlockPoller) (polls : UInt64) : UInt64 :=
  if 0 < p.maxPolls then polls + 1 else polls

/-- The loop, with its number of polls, over what the polls find.  It breaks after the last poll
that the limit allows. -/
def loop (p : BlockPoller) : System (PollerState × UInt64) (Option UInt64) where
  step s answer :=
    if 0 < p.maxPolls ∧ p.maxPolls < p.nextPoll s.2 then none
    else some ((p.poll s.1 answer).1, p.nextPoll s.2)

/-- The event that a poll of the loop sends. -/
def sent (p : BlockPoller) (s : PollerState × UInt64) (answer : Option UInt64) :
    Option PollerEvent :=
  (p.loop.step s answer).bind fun _ => (p.poll s.1 answer).2

/-! ## The consumer -/

/-- The batch and phase that an event announces. -/
def announced : PollerEvent → Option (UInt64 × Phase)
  | .phaseChanged batchId phase _ => some (batchId, phase)
  | .newBatch batchId _ => some (batchId, .commit)
  | .pauseDetected => none

/-- The consumer takes over what is announced. -/
def follow (view : UInt64 × Phase) (event : PollerEvent) : UInt64 × Phase :=
  (announced event).getD view

/-- The highest block height found so far. -/
def highest (first : UInt64) (polled : List (Option UInt64)) : UInt64 :=
  polled.reduceOption.foldl max first

/-- A higher block in another batch is in COMMIT. -/
def EntersInCommit (p : BlockPoller) (last blockHeight : UInt64) : Prop :=
  last < blockHeight → (p.clock blockHeight).1 ≠ (p.clock last).1 →
    (p.clock blockHeight).2 = .commit

/-! ## One poll -/

section

variable {p : BlockPoller} {s : PollerState}

/-- What a poll can do: find no higher block, or a higher one in another batch, in another phase
or in the same. -/
inductive Polled (p : BlockPoller) (s : PollerState) :
    Option UInt64 → PollerState → Option PollerEvent → Prop where
  | quiet {answer : Option UInt64} (stallCount : UInt32) {event : Option PollerEvent}
      (hle : ∀ height, answer = some height → height ≤ s.lastBlock)
      (hevent : event = none ∨ event = some .pauseDetected) :
      Polled p s answer { s with stallCount := stallCount } event
  | newBatch {height : UInt64} (hlt : s.lastBlock < height)
      (hbatch : (p.clock height).1 ≠ s.lastBatchId) :
      Polled p s (some height) ⟨height, (p.clock height).1, (p.clock height).2, 0⟩
        (some (.newBatch (p.clock height).1 height))
  | newPhase {height : UInt64} (hlt : s.lastBlock < height)
      (hbatch : (p.clock height).1 = s.lastBatchId) (hphase : (p.clock height).2 ≠ s.lastPhase) :
      Polled p s (some height) ⟨height, (p.clock height).1, (p.clock height).2, 0⟩
        (some (.phaseChanged (p.clock height).1 (p.clock height).2 height))
  | samePhase {height : UInt64} (hlt : s.lastBlock < height)
      (hbatch : (p.clock height).1 = s.lastBatchId) (hphase : (p.clock height).2 = s.lastPhase) :
      Polled p s (some height) ⟨height, (p.clock height).1, (p.clock height).2, 0⟩ none

theorem polled_poll (p : BlockPoller) (s : PollerState) (answer : Option UInt64) :
    p.Polled s answer (p.poll s answer).1 (p.poll s answer).2 := by
  cases answer with
  | none =>
      refine .quiet _ nofun ?_
      unfold poll
      dsimp only
      split_ifs
      · exact .inr rfl
      · exact .inl rfl
  | some height =>
      unfold poll
      dsimp only
      split_ifs with hle hbatch hphase
      · refine .quiet _ (fun _ h => ?_) (.inl rfl)
        obtain rfl := Option.some.inj h
        exact hle
      · exact .newBatch (UInt64.not_le.mp hle) hbatch
      · rw [← not_not.mp hbatch]
        exact .newPhase (UInt64.not_le.mp hle) (not_not.mp hbatch) hphase
      · rw [← not_not.mp hbatch, ← not_not.mp hphase]
        exact .samePhase (UInt64.not_le.mp hle) (not_not.mp hbatch) (not_not.mp hphase)

/-- A step of the loop is a poll. -/
theorem polled_of_step {t t' : PollerState × UInt64} {answer : Option UInt64}
    (h : p.loop.step t answer = some t') : p.Polled t.1 answer t'.1 (p.sent t answer) := by
  have hpoll := p.polled_poll t.1 answer
  rw [sent, h, Option.bind_some]
  unfold loop at h
  dsimp only at h
  split_ifs at h
  obtain rfl := Option.some.inj h
  exact hpoll

/-! ## Runs -/

/-- Batch and phase of the state are those of its last block. -/
def Current (p : BlockPoller) (s : PollerState) : Prop :=
  (s.lastBatchId, s.lastPhase) = p.clock s.lastBlock

theorem Polled.current {s' : PollerState} {answer : Option UInt64} {event : Option PollerEvent}
    (h : p.Polled s answer s' event) (hs : p.Current s) : p.Current s' := by
  cases h with
  | quiet => exact hs
  | newBatch => rfl
  | newPhase => rfl
  | samePhase => rfl

theorem highest_snoc (first : UInt64) (polled : List (Option UInt64)) (answer : Option UInt64) :
    highest first (polled ++ [answer])
      = answer.elim (highest first polled) (max (highest first polled)) := by
  unfold highest
  cases answer with
  | none => rw [← List.concat_eq_append, List.reduceOption_concat, Option.toList_none,
      List.append_nil, Option.elim_none]
  | some height => rw [← List.concat_eq_append, List.reduceOption_concat, Option.toList_some,
      List.foldl_concat, Option.elim_some]

/-- The last block of the state stays the highest. -/
theorem Polled.lastBlock {s' : PollerState} {answer : Option UInt64} {event : Option PollerEvent}
    (h : p.Polled s answer s' event) :
    s'.lastBlock = answer.elim s.lastBlock (max s.lastBlock) := by
  cases h with
  | quiet stallCount hle =>
      cases answer with
      | none => rfl
      | some height =>
          show s.lastBlock = if s.lastBlock ≤ height then height else s.lastBlock
          split_ifs with hge
          · exact UInt64.le_antisymm hge (hle height rfl)
          · rfl
  | newBatch hlt => exact (if_pos (UInt64.le_of_lt hlt)).symm
  | newPhase hlt => exact (if_pos (UInt64.le_of_lt hlt)).symm
  | samePhase hlt => exact (if_pos (UInt64.le_of_lt hlt)).symm

/-- The state after the first poll is current. -/
theorem current_initialState {first : UInt64} (h : p.initialState (some first) = some s) :
    p.Current s ∧ s.lastBlock = first := by
  unfold initialState at h
  rw [Option.bind_some] at h
  split_ifs at h
  obtain rfl := Option.some.inj h
  exact ⟨rfl, rfl⟩

/-- After a run the state is that of the highest block found. -/
theorem state_of_run {first : UInt64} (h : p.initialState (some first) = some s)
    {polled : List (Option UInt64)} {t : PollerState × UInt64}
    (hrun : p.loop.run (s, 0) polled = some t) :
    (t.1.lastBatchId, t.1.lastPhase) = p.clock (highest first polled) ∧
      t.1.lastBlock = highest first polled := by
  have hstart : p.Current s ∧ s.lastBlock = highest first [] := current_initialState h
  have hcurrent : p.Current t.1 ∧ t.1.lastBlock = highest first polled := by
    refine p.loop.run_history (I := fun polled t => p.Current t.1 ∧
      t.1.lastBlock = highest first polled) ?_ hstart hrun
    rintro past t answer t' ⟨hcurrent, hblock⟩ hstep
    have hpolled := polled_of_step hstep
    refine ⟨hpolled.current hcurrent, ?_⟩
    rw [hpolled.lastBlock, hblock, highest_snoc]
  exact ⟨hcurrent.2 ▸ hcurrent.1, hcurrent.2⟩

/-! ## The view of the consumer -/

/-- The consumer is at the batch and phase of the state. -/
def InStep (first : UInt64 × Phase) (events : List PollerEvent) (s : PollerState) : Prop :=
  events.foldl follow first = (s.lastBatchId, s.lastPhase)

/-- A poll that finds a higher block in another batch finds it in COMMIT. -/
def StartsInCommit (p : BlockPoller) (s : PollerState) (answer : Option UInt64) : Prop :=
  ∀ height, answer = some height → s.lastBlock < height → (p.clock height).1 ≠ s.lastBatchId →
    (p.clock height).2 = .commit

/-- **Step.**  A poll keeps the consumer in step exactly if a batch that it starts is in
COMMIT. -/
theorem Polled.inStep_iff {first : UInt64 × Phase} {events : List PollerEvent} {s' : PollerState}
    {answer : Option UInt64} {event : Option PollerEvent} (h : p.Polled s answer s' event)
    (hs : InStep first events s) :
    InStep first (events ++ event.toList) s' ↔ p.StartsInCommit s answer := by
  unfold InStep at hs ⊢
  rw [List.foldl_append, hs]
  cases h with
  | quiet stallCount hle hevent =>
      refine iff_of_true ?_ fun height heq hlt => ?_
      · rcases hevent with rfl | rfl <;> rfl
      · exact absurd (hle height heq) (UInt64.not_le.mpr hlt)
  | newBatch hlt hbatch =>
      show (_, Phase.commit) = _ ↔ _
      rw [Prod.mk.injEq, and_iff_right rfl]
      constructor
      · intro hphase height heq _ _
        obtain rfl := Option.some.inj heq
        exact hphase.symm
      · exact fun hall => (hall _ rfl hlt hbatch).symm
  | newPhase hlt hbatch hphase =>
      refine iff_of_true rfl fun height heq _ hne => ?_
      obtain rfl := Option.some.inj heq
      exact absurd hbatch hne
  | samePhase hlt hbatch hphase =>
      refine iff_of_true ?_ fun height heq _ hne => ?_
      · rw [hbatch, hphase]
        rfl
      · obtain rfl := Option.some.inj heq
        exact absurd hbatch hne

/-- No announcement repeats the one before, and the last one is of the batch of the state and of
its phase, or of the COMMIT that a new batch stands for. -/
structure Fresh (events : List PollerEvent) (s : PollerState) : Prop where
  distinct : (events.filterMap announced).IsChain (· ≠ ·)
  last : ∀ view ∈ (events.filterMap announced).getLast?,
    view.1 = s.lastBatchId ∧ (view.2 = .commit ∨ view.2 = s.lastPhase)

/-- A new announcement that differs from the last one. -/
theorem Fresh.snoc {events : List PollerEvent} {s s' : PollerState} (h : Fresh events s)
    {event : PollerEvent} {view : UInt64 × Phase} (hview : announced event = some view)
    (hnew : ∀ last ∈ (events.filterMap announced).getLast?, last ≠ view)
    (hlast : view.1 = s'.lastBatchId ∧ (view.2 = .commit ∨ view.2 = s'.lastPhase)) :
    Fresh (events ++ [event]) s' := by
  have hsnoc : (events ++ [event]).filterMap announced = events.filterMap announced ++ [view] :=
    System.filterMap_snoc_some hview
  constructor
  · rw [hsnoc, List.isChain_append]
    refine ⟨h.distinct, List.isChain_singleton _, fun last hmem view' hhead => ?_⟩
    obtain rfl := Option.some.inj hhead
    exact hnew last hmem
  · rw [hsnoc, List.getLast?_append]
    intro view' hmem
    obtain rfl := Option.some.inj hmem
    exact hlast

/-- **Step.**  A poll does not repeat an announcement: within a batch no block after COMMIT is in
COMMIT again. -/
theorem Polled.fresh {events : List PollerEvent} {s' : PollerState} {answer : Option UInt64}
    {event : Option PollerEvent} (h : p.Polled s answer s' event) (hs : p.Current s)
    (hfresh : Fresh events s) : Fresh (events ++ event.toList) s' := by
  cases h with
  | quiet stallCount hle hevent =>
      rcases hevent with rfl | rfl
      · rw [Option.toList_none, List.append_nil]
        exact ⟨hfresh.distinct, hfresh.last⟩
      · have hsnoc : (events ++ [PollerEvent.pauseDetected]).filterMap announced
            = events.filterMap announced := System.filterMap_snoc_none rfl
        exact ⟨hsnoc ▸ hfresh.distinct, hsnoc ▸ hfresh.last⟩
  | newBatch hlt hbatch =>
      refine hfresh.snoc rfl (fun last hmem heq => ?_) ⟨rfl, .inl rfl⟩
      have hlast := (hfresh.last last hmem).1
      rw [heq] at hlast
      exact hbatch hlast
  | @newPhase height hlt hbatch hphase =>
      refine hfresh.snoc rfl (fun last hmem heq => ?_) ⟨rfl, .inr rfl⟩
      subst heq
      rcases (hfresh.last _ hmem).2 with hcommit | hsame
      · -- the last block was in COMMIT too, so the phase did not change
        obtain ⟨hlastBatch, hlastPhase⟩ := Prod.mk.inj hs
        have hbefore := (commit_of_between (UInt64.le_refl _) (UInt64.le_of_lt hlt)
          (hlastBatch.symm.trans hbatch.symm) hcommit).2
        exact hphase (hcommit.trans (hlastPhase.trans hbefore).symm)
      · exact hphase hsame
  | samePhase hlt hbatch hphase =>
      rw [Option.toList_none, List.append_nil]
      refine ⟨hfresh.distinct, fun view hmem => ?_⟩
      rw [hbatch, hphase]
      exact hfresh.last view hmem

theorem fresh_of_run {first : UInt64} (h : p.initialState (some first) = some s)
    {polled : List (Option UInt64)} {t : PollerState × UInt64}
    (hrun : p.loop.run (s, 0) polled = some t) :
    ((p.loop.trace p.sent (s, 0) polled).filterMap announced).IsChain (· ≠ ·) := by
  have hstart : p.Current s ∧ Fresh [] s :=
    ⟨(current_initialState h).1, List.isChain_nil, nofun⟩
  have hend := p.loop.trace_history p.sent
    (I := fun events t => p.Current t.1 ∧ Fresh events t.1) ?_ hstart hrun
  · exact hend.2.distinct
  · rintro events t answer t' ⟨hcurrent, hfresh⟩ hstep
    have hpolled := polled_of_step hstep
    exact ⟨hpolled.current hcurrent, hpolled.fresh hcurrent hfresh⟩

/-- **Run.**  The consumer stays in step exactly if all polls start batches in COMMIT. -/
theorem inStep_throughout_iff {first : UInt64} (h : p.initialState (some first) = some s)
    {answers : List (Option UInt64)} {t : PollerState × UInt64}
    (hrun : p.loop.run (s, 0) answers = some t) :
    p.loop.Throughout p.sent (fun events t => InStep (p.clock first) events t.1) [] (s, 0) answers ↔
      p.loop.Follows (fun t => p.StartsInCommit t.1) (s, 0) answers := by
  obtain ⟨hcurrent, hblock⟩ := current_initialState h
  have hinit : InStep (p.clock first) [] s := hblock ▸ hcurrent.symm
  refine p.loop.throughout_iff p.sent (J := fun _ _ => True)
    (fun _ _ _ _ _ _ => trivial) ?_ trivial hinit hrun
  exact fun events t answer t' _ hs hstep => (polled_of_step hstep).inStep_iff hs

/-- The condition on a poll in terms of the blocks found before. -/
theorem startsInCommit_iff {first : UInt64} (h : p.initialState (some first) = some s)
    {polled : List (Option UInt64)} {t : PollerState × UInt64}
    (hrun : p.loop.run (s, 0) polled = some t) {answer : Option UInt64} :
    p.StartsInCommit t.1 answer ↔
      ∀ height, answer = some height → p.EntersInCommit (highest first polled) height := by
  obtain ⟨hclock, hblock⟩ := state_of_run h hrun
  unfold StartsInCommit EntersInCommit
  rw [hblock, show t.1.lastBatchId = _ from congrArg Prod.fst hclock]

/-- **The consumer.**  Throughout a run the consumer is at the batch and phase of the highest
block found and is told nothing twice in a row, exactly if every block that starts a new batch for
the poller is in COMMIT. -/
theorem consumer_in_step_iff (p : BlockPoller) {first : UInt64} {s : PollerState}
    (hstart : p.initialState (some first) = some s) {answers : List (Option UInt64)}
    {t : PollerState × UInt64} (hrun : p.loop.run (s, 0) answers = some t) :
    (∀ polled, polled <+: answers →
        let events := p.loop.trace p.sent (s, 0) polled
        events.foldl follow (p.clock first) = p.clock (highest first polled) ∧
          (events.filterMap announced).IsChain (· ≠ ·)) ↔
      ∀ polled height, polled ++ [some height] <+: answers →
        p.EntersInCommit (highest first polled) height := by
  -- a prefix of a run is a run
  have hpre : ∀ polled, polled <+: answers → ∃ t, p.loop.run (s, 0) polled = some t := by
    rintro polled ⟨rest, rfl⟩
    rw [System.run_append] at hrun
    obtain ⟨t, ht, -⟩ := Option.bind_eq_some_iff.mp hrun
    exact ⟨t, ht⟩
  have hthroughout : (∀ polled, polled <+: answers →
        let events := p.loop.trace p.sent (s, 0) polled
        events.foldl follow (p.clock first) = p.clock (highest first polled) ∧
          (events.filterMap announced).IsChain (· ≠ ·)) ↔
      p.loop.Throughout p.sent (fun events t => InStep (p.clock first) events t.1) []
        (s, 0) answers := by
    refine forall₂_congr fun polled hpolled => ?_
    obtain ⟨t, ht⟩ := hpre polled hpolled
    rw [ht, List.nil_append, and_iff_left (fresh_of_run hstart ht), ← (state_of_run hstart ht).1]
    simp only [Option.some.injEq, forall_eq']
    exact Iff.rfl
  rw [hthroughout, inStep_throughout_iff hstart hrun, System.follows_iff_forall_prefix]
  constructor
  · intro h polled height hpolled
    obtain ⟨t, ht⟩ := hpre polled ((List.prefix_append _ _).trans hpolled)
    exact (startsInCommit_iff hstart ht).mp (h polled (some height) hpolled t ht) height rfl
  · intro h polled answer hpolled t ht
    refine (startsInCommit_iff hstart ht).mpr fun height heq => ?_
    subst heq
    exact h polled height hpolled

end

/-! ## Concrete runs -/

/-- Ten blocks a batch, from batch 50 at block 1000. -/
def testPoller : BlockPoller where
  epoch := ⟨1000, 50⟩
  params := ⟨10, 4, 3, 1, 2, 3⟩
  stallThreshold := 5
  maxPolls := 0

/-- From REVEAL on, with a failure and a block that was seen before, into the next batch. -/
theorem followed_into_next_batch :
    let events := testPoller.loop.trace testPoller.sent (⟨1005, 50, .reveal, 0⟩, 0)
      [none, some 1003, some 1010]
    events.foldl follow (testPoller.clock 1005) = testPoller.clock 1010 := by
  have hstart : testPoller.initialState (some 1005) = some ⟨1005, 50, .reveal, 0⟩ := by
    decide +kernel
  have hrun : testPoller.loop.run (⟨1005, 50, .reveal, 0⟩, 0) [none, some 1003, some 1010]
      = some _ :=
    System.run_eq_some_getD _ (d := (⟨0, 0, .commit, 0⟩, 0)) (by decide +kernel)
  refine (((testPoller.consumer_in_step_iff hstart hrun).mpr ?_) _ List.prefix_rfl).1
  intro polled height hpolled
  rcases polled with _ | ⟨_, _ | ⟨_, _ | ⟨_, polled⟩⟩⟩ <;> simp at hpolled
  · obtain ⟨rfl, rfl, rfl⟩ := hpolled
    exact fun hlt => absurd hlt (by decide +kernel)
  · obtain ⟨rfl, rfl, rfl⟩ := hpolled
    exact fun _ _ => by decide +kernel

/-- A batch that is first seen in REVEAL: the consumer is told of no phase. -/
theorem reveal_unannounced :
    let s : PollerState := ⟨1008, 50, .swap, 0⟩
    let events := testPoller.loop.trace testPoller.sent (s, 0) [some 1015, some 1016]
    testPoller.initialState (some 1008) = some s ∧ events = [.newBatch 51 1015] ∧
      events.foldl follow (testPoller.clock 1008)
        ≠ testPoller.clock (highest 1008 [some 1015, some 1016]) := by
  decide +kernel

end BlockPoller
