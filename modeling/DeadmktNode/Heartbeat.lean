/-
# Heartbeats

A node that is silent for too long is reaped by the chain, so at a batch boundary the loop sends
a heartbeat when its turn has come, unless a recent settlement refreshed the node anyway.  It
remembers the batch of the last settlement that was confirmed, and SWAP registers every match of
the pool: a settlement between two other nodes is remembered as well.  As long as only own
settlements are confirmed, every turn brings a heartbeat or follows an own settlement, and no
stretch of two intervals is without one of the two
(`HeartbeatLoop.heartbeat_or_own_settlement`).
-/
import DeadmktNode.EventPoll

/-! ## What is confirmed -/

namespace SettlementManager

/-- The events among the calls for which a pending match was found. -/
def confirmed (mgr : SettlementManager) :
    List (BatchTradeSettledEvent × List String) → List BatchTradeSettledEvent
  | [] => []
  | (event, order) :: calls =>
      let (found, mgr') := mgr.onSettlementConfirmed order event
      if found then event :: mgr'.confirmed calls else mgr'.confirmed calls

end SettlementManager

namespace RunLoop

section

variable [Externals] {cfg : RunConfig} {l l' : RunLoop} {obs : Observation}

/-- The loop when it has drained the settlement reports of a block. -/
def drainReports (l : RunLoop) (obs : Observation) (newBatchId : UInt64) : RunLoop :=
  obs.results.foldl (drainReport obs.block newBatchId) l

/-- The loop when it polls for events, at a block at which it does. -/
def beforePoll (cfg : RunConfig) (l : RunLoop) (obs : Observation) : Option RunLoop :=
  if l.Transition obs then
    (l.handlePhase cfg obs).map fun r => r.1.drainReports obs (l.newBatchId obs)
  else some ((l.arrive obs).drainReports obs (l.newBatchId obs))

/-- The settlement events of a block that are confirmed. -/
def confirmedEvents (cfg : RunConfig) (l : RunLoop) (obs : Observation) :
    List BatchTradeSettledEvent :=
  if l.Polls obs then
    match l.beforePoll cfg obs with
    | none => []
    | some l => l.settlement.confirmed (settledCalls (obs.events.getD []))
  else []

/-- The batch whose boundary the loop handles at a block. -/
def boundaryBatch (l : RunLoop) (obs : Observation) : Option UInt64 :=
  if l.RunsHandler obs ∧ l.newBatchId obs ≠ l.lastBatchId then some (l.newBatchId obs) else none

/-- The batch that the loop remembers after an input. -/
def batchAfter (l : RunLoop) : Input → UInt64
  | .gossip _ => l.lastBatchId
  | .block obs => if l.lastBlock < obs.block then l.newBatchId obs else l.lastBatchId

/-- **Step.**  The loop remembers the batch of every new block. -/
theorem lastBatchId_step {i : Input} (h : step cfg l i = some l') :
    l'.lastBatchId = l.batchAfter i := by
  obtain ⟨r, hr, rfl⟩ := Option.map_eq_some_iff.mp h
  cases handle_cases hr with
  | gossip => rfl
  | old obs hold =>
      rw [batchAfter, if_neg (UInt64.not_lt.mpr hold)]
      rfl
  | skipped obs hnew =>
      rw [batchAfter, if_pos hnew]
      rfl
  | quiet obs hnew =>
      rw [batchAfter, if_pos hnew]
      rfl
  | handled obs r₀ hruns =>
      rw [batchAfter, if_pos hruns.1]
      rfl

end

end RunLoop

/-! ## The loop with its heartbeat -/

/-- A running node; was there a positive balance in its escrow at start-up? -/
structure HeartbeatConfig extends RunConfig where
  hasCapital : Bool

/-- The loop, its interval, and the batch of the last settlement that was confirmed. -/
structure HeartbeatLoop where
  loop : RunLoop
  heartbeatInterval : UInt64
  lastSettlementBatch : UInt64

/-- What a block shows: the boundary that it handled, if any, with whether a heartbeat was
submitted there, and then the settlements that it confirmed. -/
structure HeartbeatNote where
  boundary : Option (UInt64 × Bool)
  confirmed : List BatchTradeSettledEvent
deriving DecidableEq

namespace HeartbeatLoop

/-- An input of the loop; at a block the interval may be fetched again. -/
inductive Input where
  | gossip (msg : GossipMessage)
  | block (obs : Observation) (newInterval : Option UInt64)

def Input.toInput : Input → RunLoop.Input
  | .gossip msg => .gossip msg
  | .block obs _ => .block obs

/-- An interval of 0 counts as 10. -/
def clampInterval (interval : UInt64) : UInt64 := if interval = 0 then 10 else interval

/-- The loop at start-up; without an answer the interval is 10. -/
def start (loop : RunLoop) (interval : Option UInt64) : HeartbeatLoop :=
  ⟨loop, clampInterval (interval.getD 10), 0⟩

/-- Was the node refreshed by a settlement? -/
def settlementRefreshed (s : HeartbeatLoop) (newBatchId : UInt64) : Bool :=
  0 < s.lastSettlementBatch &&
    newBatchId.saturatingSub s.lastSettlementBatch < s.heartbeatInterval

/-- Does the node submit a heartbeat at the boundary of a batch? -/
def submitsHeartbeat (cfg : HeartbeatConfig) (s : HeartbeatLoop) (newBatchId : UInt64) : Bool :=
  cfg.hasCapital && !s.settlementRefreshed newBatchId && 0 < s.heartbeatInterval &&
    newBatchId % s.heartbeatInterval = cfg.nftId % s.heartbeatInterval

/-- The interval after the boundary of a batch: it is fetched every 100 batches. -/
def refetchInterval (cfg : HeartbeatConfig) (s : HeartbeatLoop) (newBatchId : UInt64)
    (newInterval : Option UInt64) : UInt64 :=
  if newBatchId % 100 = cfg.nftId % 100 then
    (newInterval.map clampInterval).getD s.heartbeatInterval
  else s.heartbeatInterval

section

variable [Externals]

/-- What an input shows. -/
def note (cfg : HeartbeatConfig) (s : HeartbeatLoop) : Input → HeartbeatNote
  | .gossip _ => ⟨none, []⟩
  | .block obs _ =>
      ⟨(s.loop.boundaryBatch obs).map fun b => (b, s.submitsHeartbeat cfg b),
        s.loop.confirmedEvents cfg.toRunConfig obs⟩

/-- The interval after an input. -/
def intervalAfter (cfg : HeartbeatConfig) (s : HeartbeatLoop) : Input → UInt64
  | .gossip _ => s.heartbeatInterval
  | .block obs newInterval =>
      match s.loop.boundaryBatch obs with
      | none => s.heartbeatInterval
      | some newBatchId => s.refetchInterval cfg newBatchId newInterval

def step (cfg : HeartbeatConfig) (s : HeartbeatLoop) (i : Input) : Option HeartbeatLoop :=
  (RunLoop.step cfg.toRunConfig s.loop i.toInput).map fun loop =>
    { loop := loop
      heartbeatInterval := s.intervalAfter cfg i
      lastSettlementBatch :=
        (s.note cfg i).confirmed.foldl (fun _ event => event.batchId) s.lastSettlementBatch }

def system (cfg : HeartbeatConfig) : System HeartbeatLoop Input := ⟨step cfg⟩

/-- The notes of a run. -/
def notes (cfg : HeartbeatConfig) (s : HeartbeatLoop) (is : List Input) : List HeartbeatNote :=
  (system cfg).trace (fun s i => some (s.note cfg i)) s is

/-! ## Conditions on a step -/

/-- The interval that is fetched is the one that is known. -/
def KeepsInterval (cfg : HeartbeatConfig) (s : HeartbeatLoop) (i : Input) : Prop :=
  s.intervalAfter cfg i = s.heartbeatInterval

/-- Every batch is observed in turn: a new batch is the next one, and the loop does not skip
ahead. -/
def InTurn (s : HeartbeatLoop) : Input → Prop
  | .gossip _ => True
  | .block obs _ => s.loop.lastBlock < obs.block → s.loop.newBatchId obs ≠ s.loop.lastBatchId →
      (s.loop.newBatchId obs).toNat = s.loop.lastBatchId.toNat + 1 ∧ ¬ s.loop.Behind obs

end

end HeartbeatLoop

/-- The NFT is buyer or seller. -/
def BatchTradeSettledEvent.involves (nftId : UInt64) (event : BatchTradeSettledEvent) : Prop :=
  event.buyerNftId = nftId ∨ event.sellerNftId = nftId

instance (nftId : UInt64) (event : BatchTradeSettledEvent) : Decidable (event.involves nftId) :=
  inferInstanceAs (Decidable (_ ∨ _))

namespace HeartbeatLoop

section

variable [Externals]

/-- If a step confirms settlements, then the last of them is an own one, of a batch that has
begun. -/
def ConfirmsOwn (cfg : HeartbeatConfig) (s : HeartbeatLoop) (i : Input) : Prop :=
  ∀ event ∈ (s.note cfg i).confirmed.getLast?,
    event.involves cfg.nftId ∧ event.batchId ≤ s.loop.batchAfter i.toInput

instance (cfg : HeartbeatConfig) (s : HeartbeatLoop) (i : Input) :
    Decidable (s.KeepsInterval cfg i) :=
  inferInstanceAs (Decidable (_ = _))

instance (s : HeartbeatLoop) : (i : Input) → Decidable (s.InTurn i)
  | .gossip _ => isTrue trivial
  | .block _ _ => inferInstanceAs (Decidable (_ → _ → _))

instance (cfg : HeartbeatConfig) (s : HeartbeatLoop) (i : Input) :
    Decidable (s.ConfirmsOwn cfg i) :=
  inferInstanceAs (Decidable (∀ event ∈ (_ : Option _), _))

/-! ## Boundaries -/

variable {cfg : HeartbeatConfig} {s s' : HeartbeatLoop} {i : Input} {b : UInt64} {sent : Bool}

/-- The batch of a boundary is the one that the loop then remembers. -/
theorem boundary_note (h : (s.note cfg i).boundary = some (b, sent)) :
    sent = s.submitsHeartbeat cfg b ∧ s.loop.batchAfter i.toInput = b ∧
      b ≠ s.loop.lastBatchId := by
  cases i with
  | gossip msg => cases h
  | block obs newInterval =>
      obtain ⟨b', hb', heq⟩ := Option.map_eq_some_iff.mp h
      obtain ⟨rfl, rfl⟩ := Prod.mk.inj heq
      unfold RunLoop.boundaryBatch at hb'
      split_ifs at hb' with hboundary
      obtain rfl := Option.some.inj hb'
      exact ⟨rfl, if_pos hboundary.1.1, hboundary.2⟩

/-- When batches are observed in turn, the loop stays in its batch or handles the boundary of
the next one. -/
theorem batchAfter_cases (cfg : HeartbeatConfig) (hturn : s.InTurn i) :
    s.loop.batchAfter i.toInput = s.loop.lastBatchId ∨
      ∃ b, (s.note cfg i).boundary = some (b, s.submitsHeartbeat cfg b) ∧
        s.loop.batchAfter i.toInput = b ∧ b.toNat = s.loop.lastBatchId.toNat + 1 := by
  cases i with
  | gossip msg => exact .inl rfl
  | block obs newInterval =>
      by_cases hnew : s.loop.lastBlock < obs.block
      · have hafter : s.loop.batchAfter (Input.block obs newInterval).toInput
            = s.loop.newBatchId obs := if_pos hnew
        rw [hafter]
        by_cases hbatch : s.loop.newBatchId obs = s.loop.lastBatchId
        · exact .inl hbatch
        · obtain ⟨hnext, hahead⟩ := hturn hnew hbatch
          refine .inr ⟨_, ?_, rfl, hnext⟩
          have hboundary : s.loop.boundaryBatch obs = some (s.loop.newBatchId obs) :=
            if_pos ⟨⟨hnew, .inr hbatch, hahead⟩, hbatch⟩
          show (s.loop.boundaryBatch obs).map _ = _
          rw [hboundary]
          rfl
      · exact .inl (if_neg hnew)

theorem lastBatchId_le (cfg : HeartbeatConfig) (hturn : s.InTurn i) :
    s.loop.lastBatchId.toNat ≤ (s.loop.batchAfter i.toInput).toNat := by
  rcases batchAfter_cases cfg hturn with hsame | ⟨b, -, hb, hnext⟩
  · rw [hsame]
  · rw [hb, hnext]
    exact Nat.le_succ _

/-! ## The invariant -/

/-- An own settlement was confirmed, of a batch in the given set. -/
def OwnSettled (nftId : UInt64) (shown : List HeartbeatNote) (batches : ℕ → Prop) : Prop :=
  ∃ n ∈ shown, ∃ event ∈ n.confirmed, event.involves nftId ∧ batches event.batchId.toNat

/-- Every boundary of a batch whose turn it is brings a heartbeat or follows an own settlement
of the last interval. -/
def TurnsCovered (nftId interval : UInt64) (shown : List HeartbeatNote) : Prop :=
  ∀ before n after, shown = before ++ n :: after →
    ∀ b sent, n.boundary = some (b, sent) → b % interval = nftId % interval →
      sent = true ∨ OwnSettled nftId before fun e => b.toNat < e + interval.toNat ∧ e ≤ b.toNat

/-- What the loop remembers after the notes that were shown. -/
structure Tracked (cfg : HeartbeatConfig) (first : ℕ) (interval : UInt64)
    (shown : List HeartbeatNote) (s : HeartbeatLoop) : Prop where
  keeps : s.heartbeatInterval = interval
  started : first ≤ s.loop.lastBatchId.toNat
  observed : ∀ h, first < h → h ≤ s.loop.lastBatchId.toNat →
    ∃ n ∈ shown, ∃ b sent, n.boundary = some (b, sent) ∧ b.toNat = h
  last : s.lastSettlementBatch = 0 ∨
    OwnSettled cfg.nftId shown (· = s.lastSettlementBatch.toNat) ∧
      s.lastSettlementBatch.toNat ≤ s.loop.lastBatchId.toNat
  covered : TurnsCovered cfg.nftId interval shown

variable {nftId interval : UInt64} {shown : List HeartbeatNote} {batches : ℕ → Prop} {first : ℕ}

omit [Externals] in
theorem OwnSettled.mono {batches' : ℕ → Prop} (h : OwnSettled nftId shown batches)
    (himp : ∀ e, batches e → batches' e) : OwnSettled nftId shown batches' := by
  obtain ⟨n, hn, event, hevent, hown, hbatch⟩ := h
  exact ⟨n, hn, event, hevent, hown, himp _ hbatch⟩

omit [Externals] in
theorem OwnSettled.append (h : OwnSettled nftId shown batches) (later : List HeartbeatNote) :
    OwnSettled nftId (shown ++ later) batches := by
  obtain ⟨n, hn, hrest⟩ := h
  exact ⟨n, List.mem_append_left _ hn, hrest⟩

omit [Externals] in
/-- The last assignment counts. -/
theorem foldl_batchId (events : List BatchTradeSettledEvent) (last : UInt64) :
    events.foldl (fun _ event => event.batchId) last
      = (events.getLast?.map BatchTradeSettledEvent.batchId).getD last := by
  induction events generalizing last with
  | nil => rfl
  | cons event events ih =>
      rw [List.foldl_cons, ih, List.getLast?_cons]
      cases events.getLast? <;> rfl

omit [Externals] in
/-- A turn without a heartbeat follows a settlement that was confirmed less than an interval
ago. -/
theorem refreshed_of_not_submitted (hcapital : cfg.hasCapital = true)
    (hpos : 0 < s.heartbeatInterval)
    (hturn : b % s.heartbeatInterval = cfg.nftId % s.heartbeatInterval)
    (hskip : s.submitsHeartbeat cfg b = false) :
    s.lastSettlementBatch ≠ 0 ∧
      b.toNat - s.lastSettlementBatch.toNat < s.heartbeatInterval.toNat := by
  have hrefreshed : s.settlementRefreshed b = true := by
    by_contra hnot
    rw [Bool.not_eq_true] at hnot
    rw [submitsHeartbeat, hcapital, hnot, decide_eq_true hpos, decide_eq_true hturn] at hskip
    cases hskip
  unfold settlementRefreshed at hrefreshed
  rw [Bool.and_eq_true, decide_eq_true_eq, decide_eq_true_eq] at hrefreshed
  refine ⟨UInt64.pos_iff_ne_zero.mp hrefreshed.1, ?_⟩
  rw [← UInt64.toNat_saturatingSub]
  exact UInt64.lt_iff_toNat_lt.mp hrefreshed.2

/-- **Step.**  The loop goes on remembering own settlements only, and covers the turn if it
comes to one. -/
theorem Tracked.step (h : Tracked cfg first interval shown s) (hcapital : cfg.hasCapital = true)
    (hpos : 0 < interval) (hkeeps : s.KeepsInterval cfg i) (hturn : s.InTurn i)
    (hown : s.ConfirmsOwn cfg i) (hstep : (system cfg).step s i = some s') :
    Tracked cfg first interval (shown ++ [s.note cfg i]) s' := by
  obtain ⟨loop, hloop, rfl⟩ := Option.map_eq_some_iff.mp hstep
  have hbatch : loop.lastBatchId = s.loop.batchAfter i.toInput := RunLoop.lastBatchId_step hloop
  have hle := lastBatchId_le cfg hturn
  refine ⟨?keeps, ?started, ?observed, ?last, ?covered⟩
  case keeps => exact hkeeps.trans h.keeps
  case started =>
    dsimp only
    rw [hbatch]
    exact h.started.trans hle
  case observed =>
    intro b hfirst hb
    dsimp only at hb
    rw [hbatch] at hb
    have hold : b ≤ s.loop.lastBatchId.toNat → ∃ n ∈ shown ++ [s.note cfg i],
        ∃ b' sent, n.boundary = some (b', sent) ∧ b'.toNat = b := by
      intro hb
      obtain ⟨n, hn, hrest⟩ := h.observed b hfirst hb
      exact ⟨n, List.mem_append_left _ hn, hrest⟩
    -- the batch stays, or the boundary to the next one was just observed
    rcases batchAfter_cases cfg hturn with hsame | ⟨b', hboundary, hb', hnext⟩
    · rw [hsame] at hb
      exact hold hb
    · rw [hb', hnext] at hb
      rcases Nat.lt_or_ge s.loop.lastBatchId.toNat b with hlast | hlast
      · exact ⟨_, List.mem_append_right _ List.mem_cons_self, b', _, hboundary, by omega⟩
      · exact hold hlast
  case last =>
    dsimp only
    rw [foldl_batchId, hbatch]
    -- the last event of the poll decides
    cases hlast : (s.note cfg i).confirmed.getLast? with
    | none =>
        rw [Option.map_none, Option.getD_none]
        refine h.last.imp id fun hold => ?_
        exact ⟨hold.1.append _, hold.2.trans hle⟩
    | some event =>
        rw [Option.map_some, Option.getD_some]
        obtain ⟨hinvolves, hbegun⟩ := hown event hlast
        refine .inr ⟨?_, UInt64.le_iff_toNat_le.mp hbegun⟩
        exact ⟨_, List.mem_append_right _ List.mem_cons_self, event,
          List.mem_of_getLast? hlast, hinvolves, rfl⟩
  case covered =>
    intro before n after hsplit b sent hboundary hdue
    rcases System.snoc_eq_append_cons_iff.mp hsplit with ⟨-, rfl, rfl⟩ | ⟨rest, -, hshown⟩
    · obtain ⟨rfl, hafter, hne⟩ := boundary_note hboundary
      -- a turn without heartbeat is covered by the settlement that was remembered
      by_cases hsent : s.submitsHeartbeat cfg b = true
      · exact .inl hsent
      · right
        rw [← h.keeps] at hpos hdue ⊢
        obtain ⟨hsome, hrecent⟩ := refreshed_of_not_submitted hcapital hpos hdue
          (Bool.not_eq_true _ ▸ hsent)
        rcases h.last with hzero | ⟨hsettled, hbegun⟩
        · exact absurd hzero hsome
        · refine hsettled.mono fun e he => ?_
          rw [hafter] at hle
          omega
    · exact h.covered before n rest hshown b sent hboundary hdue

/-! ## Runs -/

omit [Externals] in
/-- Of as many consecutive numbers as the interval has, one is in turn. -/
theorem exists_turn {interval r : ℕ} (hr : r < interval) (m : ℕ) :
    ∃ h, m ≤ h ∧ h < m + interval ∧ h % interval = r := by
  have hq : m % interval < interval := Nat.mod_lt m (by omega)
  have hm := Nat.div_add_mod m interval
  rcases Nat.lt_or_ge r (m % interval) with hlt | hge
  · refine ⟨interval * (m / interval + 1) + r, ?_, ?_, ?_⟩
    · rw [Nat.mul_succ]
      omega
    · rw [Nat.mul_succ]
      omega
    · rw [Nat.mul_add_mod, Nat.mod_eq_of_lt hr]
  · refine ⟨interval * (m / interval) + r, by omega, by omega, ?_⟩
    rw [Nat.mul_add_mod, Nat.mod_eq_of_lt hr]

omit [Externals] in
theorem clampInterval_pos (interval : UInt64) : 0 < clampInterval interval := by
  unfold clampInterval
  split_ifs with hzero
  · decide
  · exact UInt64.pos_iff_ne_zero.mpr hzero

omit [Externals] in
theorem tracked_start (cfg : HeartbeatConfig) (loop : RunLoop) (interval : Option UInt64) :
    Tracked cfg loop.lastBatchId.toNat (clampInterval (interval.getD 10)) []
      (start loop interval) := by
  refine ⟨rfl, le_refl _, ?_, .inl rfl, ?_⟩
  · intro h hfirst hlast
    exact absurd hlast (Nat.not_le.mpr hfirst)
  · intro before n after hsplit
    simp at hsplit

omit [Externals] in
/-- Two intervals without a heartbeat have an own settlement. -/
theorem Tracked.window (h : Tracked cfg first interval shown s) (hpos : 0 < interval) {m : ℕ}
    (hfirst : first < m) (hlast : m + 2 * interval.toNat ≤ s.loop.lastBatchId.toNat + 1) :
    (∃ n ∈ shown, ∃ b, n.boundary = some (b, true) ∧ m ≤ b.toNat ∧
        b.toNat < m + 2 * interval.toNat) ∨
      OwnSettled cfg.nftId shown fun e => m ≤ e ∧ e < m + 2 * interval.toNat := by
  have hposNat : 0 < interval.toNat := UInt64.lt_iff_toNat_lt.mp hpos
  -- the turn in the second of the two intervals
  obtain ⟨turn, hlow, hhigh, hmod⟩ :=
    exists_turn (Nat.mod_lt cfg.nftId.toNat hposNat) (m + interval.toNat)
  obtain ⟨n, hn, b, sent, hboundary, rfl⟩ := h.observed turn (by omega) (by omega)
  obtain ⟨before, after, hsplit⟩ := List.append_of_mem hn
  have hdue : b % interval = cfg.nftId % interval := by
    rw [← UInt64.toNat_inj, UInt64.toNat_mod, UInt64.toNat_mod]
    exact hmod
  rcases h.covered before n after hsplit b sent hboundary hdue with rfl | hsettled
  · exact .inl ⟨n, hn, b, hboundary, by omega, by omega⟩
  · right
    rw [hsplit]
    exact (hsettled.append _).mono fun e he => by omega

/-- A node with capital observes every batch in turn with a constant interval, and what its
blocks confirm last are own settlements.  Then every batch in its turn brings a heartbeat or
follows an own settlement of the last interval, and two intervals of consecutive batches contain
a heartbeat or a batch that the node settled a trade of. -/
theorem heartbeat_or_own_settlement {loop : RunLoop} {fetched : Option UInt64} {is : List Input}
    (hcapital : cfg.hasCapital = true)
    (hrun : (system cfg).run (start loop fetched) is = some s)
    (hkeeps : (system cfg).Follows (KeepsInterval cfg) (start loop fetched) is)
    (hturn : (system cfg).Follows InTurn (start loop fetched) is)
    (hown : (system cfg).Follows (ConfirmsOwn cfg) (start loop fetched) is) :
    let interval := (start loop fetched).heartbeatInterval
    let shown := notes cfg (start loop fetched) is
    TurnsCovered cfg.nftId interval shown ∧
      (∀ h, loop.lastBatchId.toNat < h → h ≤ s.loop.lastBatchId.toNat →
        ∃ n ∈ shown, ∃ b sent, n.boundary = some (b, sent) ∧ b.toNat = h) ∧
      ∀ m, loop.lastBatchId.toNat < m →
        m + 2 * interval.toNat ≤ s.loop.lastBatchId.toNat + 1 →
        (∃ n ∈ shown, ∃ b, n.boundary = some (b, true) ∧ m ≤ b.toNat ∧
            b.toNat < m + 2 * interval.toNat) ∨
          OwnSettled cfg.nftId shown fun e => m ≤ e ∧ e < m + 2 * interval.toNat := by
  have hpos : 0 < (start loop fetched).heartbeatInterval := clampInterval_pos _
  have htracked : Tracked cfg loop.lastBatchId.toNat (start loop fetched).heartbeatInterval
      (notes cfg (start loop fetched) is) s :=
    (system cfg).trace_history_of_follows (fun s i => some (s.note cfg i))
      (I := Tracked cfg loop.lastBatchId.toNat (start loop fetched).heartbeatInterval)
      (fun _ _ _ _ h hC hstep => h.step hcapital hpos hC.1 hC.2.1 hC.2.2 hstep)
      (tracked_start cfg loop fetched)
      (System.Follows.and _ hkeeps (System.Follows.and _ hturn hown))
      hrun
  exact ⟨htracked.covered, htracked.observed, fun m hfirst hlast =>
    htracked.window hpos hfirst hlast⟩

end

/-! ## Settlements of others -/

section

open RunLoop (silentBlock sampleConfig sampleLoop sampleTracker)

attribute [local instance] sampleExternals

/-- The chain confirms the match of the two sample orders at block 119. -/
def settledBlock : Observation :=
  { silentBlock 119 with events := some [(.batchTradeSettled SettlementManager.sampleSettled, [])] }

/-- The sample node with capital. -/
def sellerConfig : HeartbeatConfig := { sampleConfig with hasCapital := true }

/-- The node sells to NFT 2 in batch 7 and goes on to batch 9. -/
def sellerInputs : List Input :=
  [.gossip (.reveal 7 0 sampleBuy buySignature),
    .block { silentBlock 110 with
      strategyConnected := true
      keyOrder := [2]
      keyAnswer _ := .found buyerKey
      canAsk := true
      action := some (.commit [⟨"EMM/KAY", "sell", "0.0000001", "5"⟩]) } none,
    .gossip (.reveal 7 0 sampleBuy buySignature), .block (silentBlock 117) none,
    .block (silentBlock 118) none, .block settledBlock none, .block (silentBlock 120) none,
    .block (silentBlock 130) none]

/-- With an interval of four, batch 9 is in turn: the node sends no heartbeat, since its own
trade of batch 7 was settled. -/
theorem seller_skips_after_trade :
    TurnsCovered 1 4 (notes sellerConfig (start sampleLoop (some 4)) sellerInputs) := by
  have hchecked : ((system sellerConfig).run (start sampleLoop (some 4)) sellerInputs).isSome ∧
      (system sellerConfig).Follows (KeepsInterval sellerConfig) (start sampleLoop (some 4))
        sellerInputs ∧
      (system sellerConfig).Follows InTurn (start sampleLoop (some 4)) sellerInputs ∧
      (system sellerConfig).Follows (ConfirmsOwn sellerConfig) (start sampleLoop (some 4))
        sellerInputs := by
    decide +kernel
  obtain ⟨hruns, hkeeps, hturn, hown⟩ := hchecked
  obtain ⟨s, hrun⟩ := Option.isSome_iff_exists.mp hruns
  exact (heartbeat_or_own_settlement rfl hrun hkeeps hturn hown).1

/-- A node of NFT 3 in the same pool. -/
def watcherConfig : HeartbeatConfig := { sampleConfig with nftId := 3, hasCapital := true }

/-- The node of NFT 3 at start-up. -/
def watcherLoop : RunLoop :=
  RunLoop.start watcherConfig.toRunConfig ⟨100, 6⟩ ⟨10, 4, 3, 1, 2, 3⟩ 1 105 sampleTracker
    (some 10000000000)

/-- The orders of NFT 1 and NFT 2 arrive. -/
def ordersArrive : List Input :=
  [.gossip (.reveal 7 0 sampleSell sellSignature), .gossip (.reveal 7 0 sampleBuy buySignature)]

/-- The node only watches while NFT 1 and NFT 2 trade in batch 7. -/
def watcherInputs : List Input :=
  ordersArrive ++
    .block { silentBlock 110 with
      keyOrder := [1, 2]
      keyAnswer nftId := .found (if nftId = 1 then sellerKey else buyerKey) } none ::
    ordersArrive ++
    [.block (silentBlock 117) none, .block (silentBlock 118) none, .block settledBlock none,
      .block (silentBlock 120) none]

/-- With an interval of five, batch 8 is in turn: the trade of the others is taken for a refresh
of NFT 3, which sends no heartbeat. -/
theorem watcher_skips_after_trade_of_others :
    ¬ ∀ (cfg : HeartbeatConfig) (loop : RunLoop) (fetched : Option UInt64) (is : List Input)
        (s : HeartbeatLoop), cfg.hasCapital = true →
      (system cfg).run (start loop fetched) is = some s →
      (system cfg).Follows (KeepsInterval cfg) (start loop fetched) is →
      (system cfg).Follows InTurn (start loop fetched) is →
      TurnsCovered cfg.nftId (start loop fetched).heartbeatInterval
        (notes cfg (start loop fetched) is) := by
  intro h
  have hchecked : ((system watcherConfig).run (start watcherLoop (some 5)) watcherInputs).isSome ∧
      (system watcherConfig).Follows (KeepsInterval watcherConfig) (start watcherLoop (some 5))
        watcherInputs ∧
      (system watcherConfig).Follows InTurn (start watcherLoop (some 5)) watcherInputs ∧
      notes watcherConfig (start watcherLoop (some 5)) watcherInputs
        = (notes watcherConfig (start watcherLoop (some 5)) watcherInputs).take 8
          ++ [⟨some (8, false), []⟩] ∧
      ∀ n ∈ (notes watcherConfig (start watcherLoop (some 5)) watcherInputs).take 8,
        ∀ event ∈ n.confirmed, ¬ event.involves 3 := by
    decide +kernel
  obtain ⟨hruns, hkeeps, hturn, hlast, hothers⟩ := hchecked
  obtain ⟨s, hrun⟩ := Option.isSome_iff_exists.mp hruns
  have hcovered := h watcherConfig watcherLoop (some 5) watcherInputs s rfl hrun hkeeps hturn
  rcases hcovered _ _ [] hlast 8 false rfl (by decide) with hsent | ⟨n, hn, event, hevent, hown, -⟩
  · cases hsent
  · exact hothers n hn event hevent hown

end

end HeartbeatLoop
