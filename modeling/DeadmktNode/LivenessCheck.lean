/-
# The liveness check

The chain reaps a node that it has not heard of for too long.  In its turn, at a batch boundary,
the loop asks the chain whether the node is still active; if it is not, the loop submits
`escrow::reactivate` and waits for the transaction.

* Whatever the chain answers, the counters of the check say what it has answered
  (`LivenessLoop.liveness_counters`).
* When the chain answers, includes the transactions and every batch is observed in turn, no outage
  of the node lasts for an interval of batches, and there is one transaction for each outage
  (`ReapedNode.outage_is_short`).
-/
import DeadmktNode.ChainConfig
import DeadmktNode.Heartbeat
import DeadmktNode.TransactionWait
import Mathlib.Data.List.DropRight

namespace RunLoop

/-- The batch whose boundary the loop handles with an input. -/
def boundaryAt (l : RunLoop) : Input → Option UInt64
  | .gossip _ => none
  | .block obs => l.boundaryBatch obs

/-- Every batch is observed in turn: a new batch is the next one, and the loop does not skip
ahead. -/
def InTurn (l : RunLoop) : Input → Prop
  | .gossip _ => True
  | .block obs => l.lastBlock < obs.block → l.newBatchId obs ≠ l.lastBatchId →
      (l.newBatchId obs).toNat = l.lastBatchId.toNat + 1 ∧ ¬ l.Behind obs

instance (l : RunLoop) : (i : Input) → Decidable (l.InTurn i)
  | .gossip _ => isTrue trivial
  | .block _ => inferInstanceAs (Decidable (_ → _ → _))

/-- When batches are observed in turn, the loop stays in its batch or handles the boundary of
the next one. -/
theorem batchAfter_of_inTurn {l : RunLoop} {i : Input} (h : l.InTurn i) :
    (l.boundaryAt i = none ∧ l.batchAfter i = l.lastBatchId) ∨
      ∃ b, l.boundaryAt i = some b ∧ l.batchAfter i = b ∧
        b.toNat = l.lastBatchId.toNat + 1 := by
  cases i with
  | gossip msg => exact .inl ⟨rfl, rfl⟩
  | block obs =>
      by_cases hnew : l.lastBlock < obs.block
      · have hafter : l.batchAfter (.block obs) = l.newBatchId obs := if_pos hnew
        rw [hafter]
        by_cases hbatch : l.newBatchId obs = l.lastBatchId
        · exact .inl ⟨if_neg fun hboundary => hboundary.2 hbatch, hbatch⟩
        · obtain ⟨hnext, hahead⟩ := h hnew hbatch
          exact .inr ⟨_, if_pos ⟨⟨hnew, .inr hbatch, hahead⟩, hbatch⟩, rfl, hnext⟩
      · exact .inl ⟨if_neg fun hboundary => hnew hboundary.1.1, if_neg hnew⟩

end RunLoop

/-! ## One check -/

/-- What the outside answers to a check: the view `escrow::is_active`, the submission of
`escrow::reactivate`, and the polls of its transaction. -/
structure CheckAnswers where
  view : Except ChainError JsonValue
  submitted : Except String String
  polls : List TxPoll

/-- What a check comes to. -/
inductive CheckOutcome where
  | unknown
  | active
  | inactive (reactivated : Bool)
deriving DecidableEq, Repr

/-- Does the check find the node inactive? -/
def CheckOutcome.isInactive : CheckOutcome → Bool
  | .inactive _ => true
  | _ => false

namespace CheckAnswers

/-- Is the node active?  `none` if the view fails or says something else. -/
def checkIsActive (a : CheckAnswers) : Option Bool :=
  match a.view with
  | .ok r => (r.getIndex 0).bind JsonValue.asBool
  | .error _ => none

/-- Reactivate the node: was the transaction included with success?  `none` if the polls do not
tell yet. -/
def reactivate (http : HttpCrates) (a : CheckAnswers) : Option Bool :=
  match a.submitted with
  | .error _ => some false
  | .ok _ => (SupraClient.waitForTx http 20000 a.polls).map fun
      | .ok r => r.success
      | .error _ => false

/-- What the check comes to. -/
def outcome (http : HttpCrates) (a : CheckAnswers) : Option CheckOutcome :=
  match a.checkIsActive with
  | some true => some .active
  | some false => (a.reactivate http).map .inactive
  | none => some .unknown

end CheckAnswers

/-! ## The loop with its check -/

/-- A running node, and the variable that says how often it is checked. -/
structure LivenessConfig extends RunConfig where
  livenessCheckInterval : Option String

/-- The interval in batches; 0 means no checks. -/
def LivenessConfig.interval (cfg : LivenessConfig) : UInt64 :=
  (cfg.livenessCheckInterval.bind fun s => fromStrRadix 10 s.toList).getD 50

/-- Is the boundary of a batch in turn? -/
def LivenessConfig.checks (cfg : LivenessConfig) (newBatchId : UInt64) : Bool :=
  0 < cfg.interval && newBatchId % cfg.interval = cfg.nftId % cfg.interval

theorem LivenessConfig.checks_iff {cfg : LivenessConfig} (hpos : 0 < cfg.interval) {b : UInt64} :
    cfg.checks b = true ↔ b.toNat % cfg.interval.toNat = cfg.nftId.toNat % cfg.interval.toNat := by
  rw [LivenessConfig.checks, decide_eq_true hpos, Bool.true_and, decide_eq_true_eq,
    ← UInt64.toNat_inj, UInt64.toNat_mod, UInt64.toNat_mod]

/-- The loop and the counters of its check. -/
structure LivenessLoop where
  loop : RunLoop
  consecutiveInactive : UInt32
  attempts : UInt64
  successes : UInt64

namespace LivenessLoop

/-- An input of the loop; a block brings the answers to a check, should there be one. -/
inductive Input where
  | gossip (msg : GossipMessage)
  | block (obs : Observation) (answers : CheckAnswers)

def Input.toInput : Input → RunLoop.Input
  | .gossip msg => .gossip msg
  | .block obs _ => .block obs

/-- The loop at start-up. -/
def start (loop : RunLoop) : LivenessLoop := ⟨loop, 0, 0, 0⟩

/-- Count the outcome of a check. -/
def record (s : LivenessLoop) : CheckOutcome → LivenessLoop
  | .unknown => s
  | .active => { s with consecutiveInactive := 0 }
  | .inactive reactivated =>
      { s with
        consecutiveInactive := s.consecutiveInactive + 1
        attempts := s.attempts + 1
        successes := if reactivated then s.successes + 1 else s.successes }

section

variable [Externals]

/-- The answers to the check that is made with an input, if there is one. -/
def checkAt (cfg : LivenessConfig) (s : LivenessLoop) : Input → Option CheckAnswers
  | .gossip _ => none
  | .block obs answers => if (s.loop.boundaryBatch obs).any cfg.checks then some answers else none

/-- The counters after an input. -/
def recordAt (http : HttpCrates) (cfg : LivenessConfig) (s : LivenessLoop) (i : Input) :
    Option LivenessLoop :=
  match s.checkAt cfg i with
  | none => some s
  | some answers => (answers.outcome http).map s.record

def step (http : HttpCrates) (cfg : LivenessConfig) (s : LivenessLoop) (i : Input) :
    Option LivenessLoop :=
  (RunLoop.step cfg.toRunConfig s.loop i.toInput).bind fun loop =>
    (s.recordAt http cfg i).map fun s' => { s' with loop := loop }

def system (http : HttpCrates) (cfg : LivenessConfig) : System LivenessLoop Input :=
  ⟨step http cfg⟩

/-- What an input shows: the outcome of its check. -/
def outcomeAt (http : HttpCrates) (cfg : LivenessConfig) (s : LivenessLoop) (i : Input) :
    Option CheckOutcome :=
  (s.checkAt cfg i).bind (CheckAnswers.outcome http)

/-- The checks of a run. -/
def checked (http : HttpCrates) (cfg : LivenessConfig) (s : LivenessLoop) (is : List Input) :
    List CheckOutcome :=
  (system http cfg).trace (outcomeAt http cfg) s is

variable {http : HttpCrates} {cfg : LivenessConfig} {s s' : LivenessLoop} {i : Input}

/-- **Step.**  The loop moves on, and the counters take in the outcome of the check. -/
theorem step_cases (h : step http cfg s i = some s') :
    RunLoop.step cfg.toRunConfig s.loop i.toInput = some s'.loop ∧
      ((s.checkAt cfg i = none ∧ s' = { s with loop := s'.loop }) ∨
        ∃ a o, s.checkAt cfg i = some a ∧ a.outcome http = some o ∧
          s' = { s.record o with loop := s'.loop }) := by
  obtain ⟨loop, hloop, hrest⟩ := Option.bind_eq_some_iff.mp h
  obtain ⟨s₁, hrecord, rfl⟩ := Option.map_eq_some_iff.mp hrest
  refine ⟨hloop, ?_⟩
  unfold recordAt at hrecord
  cases hcheck : s.checkAt cfg i with
  | none =>
      rw [hcheck] at hrecord
      obtain rfl := Option.some.inj hrecord
      exact .inl ⟨rfl, rfl⟩
  | some a =>
      rw [hcheck] at hrecord
      obtain ⟨o, ho, rfl⟩ := Option.map_eq_some_iff.mp hrecord
      exact .inr ⟨a, o, rfl, ho, rfl⟩

omit [Externals] in
/-- A check is made at a boundary in turn. -/
theorem checkAt_isSome_iff :
    (s.checkAt cfg i).isSome ↔ ∃ b, s.loop.boundaryAt i.toInput = some b ∧ cfg.checks b := by
  cases i with
  | gossip msg => simp [checkAt, RunLoop.boundaryAt, Input.toInput]
  | block obs answers =>
      simp only [checkAt, RunLoop.boundaryAt, Input.toInput]
      cases s.loop.boundaryBatch obs with
      | none => simp
      | some b => by_cases hb : cfg.checks b = true <;> simp [hb]

/-! ## The counters -/

/-- What the counters say about the checks so far. -/
structure Counted (seen : List CheckOutcome) (s : LivenessLoop) : Prop where
  attempts : s.attempts = UInt64.ofNat (seen.countP CheckOutcome.isInactive)
  successes : s.successes = UInt64.ofNat (seen.count (.inactive true))
  consecutive : s.consecutiveInactive
    = UInt32.ofNat ((seen.rtakeWhile (· ≠ .active)).countP CheckOutcome.isInactive)

omit [Externals] in
theorem Counted.record {seen : List CheckOutcome} (h : Counted seen s) (o : CheckOutcome) :
    Counted (seen ++ [o]) (s.record o) := by
  obtain ⟨hattempts, hsuccesses, hconsecutive⟩ := h
  cases o with
  -- a failed view is passed over, and does not end the row of inactive checks
  | unknown =>
      refine ⟨?_, ?_, ?_⟩
      · rw [List.countP_append]
        exact hattempts
      · rw [List.count_append]
        exact hsuccesses
      · rw [List.rtakeWhile_concat_pos _ _ _ (by decide), List.countP_append]
        exact hconsecutive
  | active =>
      refine ⟨?_, ?_, ?_⟩
      · rw [List.countP_append]
        exact hattempts
      · rw [List.count_append]
        exact hsuccesses
      · rw [List.rtakeWhile_concat_neg _ _ _ (by decide)]
        rfl
  | inactive reactivated =>
      refine ⟨?_, ?_, ?_⟩
      · rw [List.countP_append, UInt64.ofNat_add, ← hattempts]
        rfl
      · rw [List.count_append, UInt64.ofNat_add, ← hsuccesses]
        cases reactivated
        · exact (UInt64.add_zero s.successes).symm
        · rfl
      · rw [List.rtakeWhile_concat_pos _ _ _ (by simp), List.countP_append, UInt32.ofNat_add,
          ← hconsecutive]
        rfl

/-- **The counters.**  In every run the attempts are the checks that found the node inactive, the
successes are those whose transaction was included with success, and the consecutive inactive
checks are those since the node was last found active. -/
theorem liveness_counters {loop : RunLoop} {is : List Input}
    (hrun : (system http cfg).run (start loop) is = some s) :
    let seen := checked http cfg (start loop) is
    s.attempts = UInt64.ofNat (seen.countP CheckOutcome.isInactive) ∧
      s.successes = UInt64.ofNat (seen.count (.inactive true)) ∧
      s.consecutiveInactive
        = UInt32.ofNat ((seen.rtakeWhile (· ≠ .active)).countP CheckOutcome.isInactive) := by
  have hstart : Counted [] (start loop) := ⟨rfl, rfl, rfl⟩
  have hcounted : Counted (checked http cfg (start loop) is) s := by
    refine (system http cfg).trace_history (outcomeAt http cfg) (I := Counted) ?_ hstart hrun
    intro seen s i s' hI hstep
    obtain ⟨-, ⟨hnone, hs'⟩ | ⟨a, o, hcheck, ho, hs'⟩⟩ := step_cases hstep
    · have hout : s.outcomeAt http cfg i = none := by rw [outcomeAt, hnone]; rfl
      rw [hout, hs', Option.toList_none, List.append_nil]
      exact ⟨hI.attempts, hI.successes, hI.consecutive⟩
    · have hout : s.outcomeAt http cfg i = some o := by rw [outcomeAt, hcheck]; exact ho
      obtain ⟨h₁, h₂, h₃⟩ := hI.record o
      rw [hout, hs', Option.toList_some]
      exact ⟨h₁, h₂, h₃⟩
  exact ⟨hcounted.attempts, hcounted.successes, hcounted.consecutive⟩

end

end LivenessLoop

/-! ## A node that is reaped -/

/-- A node, the batch in which the chain has reaped it, and how often it was reaped. -/
structure ReapedNode where
  node : LivenessLoop
  inactiveSince : Option ℕ
  outages : ℕ

namespace ReapedNode

/-- The chain reaps the node, or the node takes an input. -/
inductive Input where
  | reap
  | node (i : LivenessLoop.Input)

/-- An active node that was never reaped. -/
def start (loop : RunLoop) : ReapedNode := ⟨.start loop, none, 0⟩

/-- Does the chain take the node for active? -/
def active (w : ReapedNode) : Bool := w.inactiveSince.isNone

/-- The chain reaps the node, if it is active. -/
def reap (w : ReapedNode) : ReapedNode :=
  match w.inactiveSince with
  | some _ => w
  | none =>
      { w with
        inactiveSince := some w.node.loop.lastBatchId.toNat
        outages := w.outages + 1 }

section

variable [Externals]

/-- A transaction that was included with success ends the outage. -/
def sinceAfter (http : HttpCrates) (cfg : LivenessConfig) (w : ReapedNode)
    (i : LivenessLoop.Input) : Option ℕ :=
  if w.node.outcomeAt http cfg i = some (.inactive true) then none else w.inactiveSince

def step (http : HttpCrates) (cfg : LivenessConfig) (w : ReapedNode) : Input → Option ReapedNode
  | .reap => some w.reap
  | .node i => (LivenessLoop.step http cfg w.node i).map fun node =>
      { w with node := node, inactiveSince := w.sinceAfter http cfg i }

def system (http : HttpCrates) (cfg : LivenessConfig) : System ReapedNode Input :=
  ⟨step http cfg⟩

/-- The node observes every batch in turn. -/
def InTurn (w : ReapedNode) : Input → Prop
  | .reap => True
  | .node i => w.node.loop.InTurn i.toInput

/-- A check is answered as the chain has it, and a reactivation succeeds. -/
def Answered (http : HttpCrates) (cfg : LivenessConfig) (w : ReapedNode) : Input → Prop
  | .reap => True
  | .node i => ∀ a ∈ w.node.checkAt cfg i, a.checkIsActive = some w.active ∧
      (w.active = false → a.reactivate http = some true)

instance (w : ReapedNode) : (i : Input) → Decidable (w.InTurn i)
  | .reap => isTrue trivial
  | .node i => inferInstanceAs (Decidable (w.node.loop.InTurn i.toInput))

instance (http : HttpCrates) (cfg : LivenessConfig) (w : ReapedNode) :
    (i : Input) → Decidable (w.Answered http cfg i)
  | .reap => isTrue trivial
  | .node i => inferInstanceAs (Decidable (∀ a ∈ w.node.checkAt cfg i, _ ∧ _))

variable {http : HttpCrates} {cfg : LivenessConfig} {w w' : ReapedNode} {i : Input}

/-- Since the node was reaped no batch was in turn, and every earlier outage has had its
transaction. -/
structure Recovering (cfg : LivenessConfig) (w : ReapedNode) : Prop where
  begun : ∀ since ∈ w.inactiveSince, since ≤ w.node.loop.lastBatchId.toNat
  waits : ∀ since ∈ w.inactiveSince, ∀ b, since < b → b ≤ w.node.loop.lastBatchId.toNat →
    b % cfg.interval.toNat ≠ cfg.nftId.toNat % cfg.interval.toNat
  succeeds : w.node.attempts = w.node.successes
  once : UInt64.ofNat w.outages = w.node.attempts + if w.active then 0 else 1

omit [Externals] in
theorem Recovering.reap (h : Recovering cfg w) : Recovering cfg w.reap := by
  obtain ⟨hbegun, hwaits, hsucceeds, honce⟩ := h
  unfold ReapedNode.reap
  cases hsince : w.inactiveSince with
  | some since => exact ⟨hbegun, hwaits, hsucceeds, honce⟩
  | none =>
      have hactive : w.active = true := by rw [active, hsince]; rfl
      rw [hactive, if_pos rfl, UInt64.add_zero] at honce
      refine ⟨?_, ?_, hsucceeds, ?_⟩
      · intro since h
        exact (Option.some.inj h).ge
      · intro since h b hlow hhigh
        obtain rfl := Option.some.inj h
        exact absurd hlow (Nat.not_lt.mpr hhigh)
      · show UInt64.ofNat (w.outages + 1) = w.node.attempts + 1
        rw [UInt64.ofNat_add, honce]
        rfl

omit [Externals] in
/-- A node that is not checked waits on: no batch that it goes on to is in turn. -/
theorem Recovering.unchecked {node : LivenessLoop} {i : LivenessLoop.Input}
    (h : Recovering cfg w) (hpos : 0 < cfg.interval) (hturn : w.node.loop.InTurn i.toInput)
    (hnone : w.node.checkAt cfg i = none) (hsame : node = { w.node with loop := node.loop })
    (hbatch : node.loop.lastBatchId = w.node.loop.batchAfter i.toInput) :
    Recovering cfg { w with node := node } := by
  obtain ⟨hbegun, hwaits, hsucceeds, honce⟩ := h
  have hattempts : node.attempts = w.node.attempts := by rw [hsame]
  have hsuccesses : node.successes = w.node.successes := by rw [hsame]
  -- the loop stays in its batch, or goes on to the next one, which is not in turn
  have hnext : ∀ b, b ≤ node.loop.lastBatchId.toNat → b ≤ w.node.loop.lastBatchId.toNat ∨
      b % cfg.interval.toNat ≠ cfg.nftId.toNat % cfg.interval.toNat := by
    intro b hb
    rw [hbatch] at hb
    rcases RunLoop.batchAfter_of_inTurn hturn with ⟨-, hafter⟩ | ⟨b', hb', hafter, hnext⟩
    · rw [hafter] at hb
      exact .inl hb
    · rw [hafter, hnext] at hb
      rcases Nat.lt_or_ge w.node.loop.lastBatchId.toNat b with hnew | hold
      · obtain rfl : b = b'.toNat := by omega
        refine .inr fun hdue => ?_
        have hchecked : (w.node.checkAt cfg i).isSome := LivenessLoop.checkAt_isSome_iff.mpr
          ⟨b', hb', (LivenessConfig.checks_iff hpos).mpr hdue⟩
        rw [hnone] at hchecked
        cases hchecked
      · exact .inl hold
  have hle : w.node.loop.lastBatchId.toNat ≤ node.loop.lastBatchId.toNat := by
    rcases RunLoop.batchAfter_of_inTurn hturn with ⟨-, hafter⟩ | ⟨b', -, hafter, hnext'⟩
    · rw [hbatch, hafter]
    · rw [hbatch, hafter, hnext']
      exact Nat.le_succ _
  refine ⟨?_, ?_, ?_, ?_⟩
  · intro since hmem
    exact (hbegun since hmem).trans hle
  · intro since hmem b hlow hhigh
    rcases hnext b hhigh with hold | hnot
    · exact hwaits since hmem b hlow hold
    · exact hnot
  · exact hattempts.trans (hsucceeds.trans hsuccesses.symm)
  · exact hattempts.symm ▸ honce

omit [Externals] in
/-- A check that is answered finds the node active, or ends the outage. -/
theorem Recovering.checked {loop : RunLoop} {a : CheckAnswers} {o : CheckOutcome}
    (h : Recovering cfg w) (hview : a.checkIsActive = some w.active)
    (hreactivate : w.active = false → a.reactivate http = some true)
    (ho : a.outcome http = some o) :
    Recovering cfg { w with
      node := { w.node.record o with loop := loop }
      inactiveSince := if o = .inactive true then none else w.inactiveSince } := by
  obtain ⟨-, -, hsucceeds, honce⟩ := h
  unfold CheckAnswers.outcome at ho
  rw [hview] at ho
  cases hactive : w.active with
  | true =>
      rw [hactive] at ho honce
      obtain rfl := Option.some.inj ho
      have hnone : w.inactiveSince = none := Option.isNone_iff_eq_none.mp hactive
      rw [if_neg (by simp), hnone]
      exact ⟨by simp, by simp, hsucceeds, honce⟩
  | false =>
      rw [hactive] at ho honce
      rw [hreactivate hactive] at ho
      obtain rfl := Option.some.inj ho
      rw [if_pos rfl]
      refine ⟨by simp, by simp, ?_, ?_⟩
      · exact congrArg (· + 1) hsucceeds
      · exact honce.trans (UInt64.add_zero _).symm

/-- **Step.**  A node that is inactive waits until it is in turn, and is then reactivated. -/
theorem Recovering.step (h : Recovering cfg w) (hpos : 0 < cfg.interval) (hturn : w.InTurn i)
    (hanswered : w.Answered http cfg i) (hstep : (system http cfg).step w i = some w') :
    Recovering cfg w' := by
  cases i with
  | reap =>
      obtain rfl := Option.some.inj hstep
      exact h.reap
  | node i =>
      obtain ⟨node, hnode, rfl⟩ := Option.map_eq_some_iff.mp hstep
      obtain ⟨hloop, ⟨hnone, hsame⟩ | ⟨a, o, hsome, ho, hrecord⟩⟩ :=
        LivenessLoop.step_cases hnode
      · have hsince : w.sinceAfter http cfg i = w.inactiveSince := by
          rw [sinceAfter, LivenessLoop.outcomeAt, hnone]
          rfl
        rw [hsince]
        exact h.unchecked hpos hturn hnone hsame (RunLoop.lastBatchId_step hloop)
      · obtain ⟨hview, hreactivate⟩ := hanswered a (Option.mem_def.mpr hsome)
        have hsince : w.sinceAfter http cfg i
            = if o = .inactive true then none else w.inactiveSince := by
          rw [sinceAfter, LivenessLoop.outcomeAt, hsome, Option.bind_some, ho]
          simp only [Option.some.injEq]
        rw [hsince, hrecord]
        exact h.checked hview hreactivate ho

/-- **Outages are short.**  The chain answers the checks of a node and includes its transactions,
and the node observes every batch in turn.  Then the chain may reap the node at any moment and as
often as it likes: never has it been inactive for an interval of batches, and it has submitted one
transaction for every outage that is over. -/
theorem outage_is_short {loop : RunLoop} {is : List Input} (hpos : 0 < cfg.interval)
    (hrun : (system http cfg).run (start loop) is = some w)
    (hturn : (system http cfg).Follows InTurn (start loop) is)
    (hanswered : (system http cfg).Follows (Answered http cfg) (start loop) is) :
    (∀ since ∈ w.inactiveSince,
        w.node.loop.lastBatchId.toNat < since + cfg.interval.toNat) ∧
      w.node.attempts = w.node.successes ∧
      UInt64.ofNat w.outages = w.node.attempts + if w.active then 0 else 1 := by
  have hstart : Recovering cfg (start loop) := ⟨by simp [start], by simp [start], rfl, rfl⟩
  have h : Recovering cfg w :=
    (system http cfg).run_invariant (I := Recovering cfg)
      (fun _ _ _ hI hC hstep => hI.step hpos hC.1 hC.2 hstep) hstart
      (System.Follows.and _ hturn hanswered) hrun
  refine ⟨fun since hmem => ?_, h.succeeds, h.once⟩
  -- an interval of batches after the reaping contains one in turn
  have hposNat : 0 < cfg.interval.toNat := UInt64.lt_iff_toNat_lt.mp hpos
  obtain ⟨turn, hlow, hhigh, hmod⟩ :=
    HeartbeatLoop.exists_turn (Nat.mod_lt cfg.nftId.toNat hposNat) (since + 1)
  by_contra hlong
  exact h.waits since hmem turn (by omega) (by omega) hmod

end

/-! ## An outage -/

section

attribute [local instance] sampleExternals

open RunLoop (silentBlock sampleConfig sampleLoop)

/-- The sample node, which is checked in odd batches. -/
def oddConfig : LivenessConfig := { sampleConfig with livenessCheckInterval := some "2" }

/-- A parser that knows one answer about a transaction. -/
def includedHttp : HttpCrates where
  statusText status := toString status
  parse _ := .ok (.object [("status", .string "Success")])

/-- The chain takes the node for active or not; a reactivation succeeds at the first poll. -/
def answersOf (active : Bool) : CheckAnswers where
  view := .ok (.array [.bool active])
  submitted := .ok "0xaa"
  polls := [⟨0, .response ⟨200, none, .ok "transaction"⟩⟩]

/-- The node is found active in batch 7 and inactive in batch 9. -/
def checkedInputs : List LivenessLoop.Input :=
  [.block (silentBlock 110) (answersOf true), .block (silentBlock 120) (answersOf false),
    .block (silentBlock 130) (answersOf false)]

/-- One attempt, which succeeds. -/
theorem counters_after_outage :
    ∃ s, (LivenessLoop.system includedHttp oddConfig).run (.start sampleLoop) checkedInputs
        = some s ∧
      LivenessLoop.checked includedHttp oddConfig (.start sampleLoop) checkedInputs
        = [.active, .inactive true] ∧
      s.attempts = 1 ∧ s.successes = 1 ∧ s.consecutiveInactive = 1 := by
  have hchecked : ((LivenessLoop.system includedHttp oddConfig).run (.start sampleLoop)
        checkedInputs).isSome ∧
      LivenessLoop.checked includedHttp oddConfig (.start sampleLoop) checkedInputs
        = [.active, .inactive true] := by
    decide +kernel
  obtain ⟨hruns, hseen⟩ := hchecked
  obtain ⟨s, hrun⟩ := Option.isSome_iff_exists.mp hruns
  obtain ⟨hattempts, hsuccesses, hconsecutive⟩ := LivenessLoop.liveness_counters hrun
  rw [hseen] at hattempts hsuccesses hconsecutive
  exact ⟨s, hrun, hseen, hattempts, hsuccesses, hconsecutive⟩

/-- The node is reaped in batch 7, after its check, and checked again in batch 9. -/
def reapedInputs : List Input :=
  [.node (.block (silentBlock 110) (answersOf true)), .reap,
    .node (.block (silentBlock 120) (answersOf false)),
    .node (.block (silentBlock 130) (answersOf false))]

/-- In batch 9 the outage is over. -/
theorem reaped_and_back :
    ∃ w, (system includedHttp oddConfig).run (start sampleLoop) reapedInputs = some w ∧
      w.active = true ∧ w.outages = 1 ∧ w.node.attempts = w.node.successes ∧
      UInt64.ofNat w.outages = w.node.attempts + if w.active then 0 else 1 := by
  have hchecked : ((system includedHttp oddConfig).run (start sampleLoop) reapedInputs).map
        (fun w => (w.active, w.outages)) = some (true, 1) ∧
      (system includedHttp oddConfig).Follows InTurn (start sampleLoop) reapedInputs ∧
      (system includedHttp oddConfig).Follows (Answered includedHttp oddConfig)
        (start sampleLoop) reapedInputs := by
    decide +kernel
  obtain ⟨hrun, hturn, hanswered⟩ := hchecked
  obtain ⟨w, hrun, heq⟩ := Option.map_eq_some_iff.mp hrun
  obtain ⟨hactive, houtages⟩ := Prod.mk.inj heq
  exact ⟨w, hrun, hactive, houtages,
    (outage_is_short (by decide +kernel) hrun hturn hanswered).2⟩

end

end ReapedNode
