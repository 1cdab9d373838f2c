/-
# One submitter for a match

Both parties of a match compute it, and all the other nodes of the pool do; its gas payer
alone hands it to the settlement worker.  So among nodes with different NFTs that saw the
same reveals and markets, in whatever order, a match is submitted as often as it was computed
or less, and never by a third party (`one_submitter`).  Over a run of one node, every match
that MATCH computed is handed to the worker at most once, and only if the node pays for it
(`RunLoop.submitted_at_most_once`).
-/
import DeadmktNode.OwnMatches
import DeadmktNode.MatchingOrder

open List

/-! ## One owner for each element -/

section

variable {ν κ α : Type*} [DecidableEq α] {owner : α → κ} {ident : ν → κ} {out : ν → List α}

/-- What somebody else owns is not there. -/
theorem count_eq_zero_of_owner {l : List α} {k : κ} (hl : ∀ a ∈ l, owner a = k) {a : α}
    (ha : owner a ≠ k) : l.count a = 0 := by
  rw [List.count_eq_zero]
  intro hmem
  exact ha (hl a hmem)

/-- Without an owner there is no element. -/
theorem count_flatMap_of_no_owner {nodes : List ν}
    (hown : ∀ n ∈ nodes, ∀ a ∈ out n, owner a = ident n) {a : α}
    (ha : ∀ n ∈ nodes, owner a ≠ ident n) : (nodes.flatMap out).count a = 0 := by
  rw [List.count_eq_zero]
  intro hmem
  obtain ⟨n, hn, hout⟩ := List.mem_flatMap.mp hmem
  exact ha n hn (hown n hn a hout)

/-- Of participants with different identities only the owner contributes. -/
theorem count_flatMap_of_owner {nodes : List ν} (hid : (nodes.map ident).Nodup)
    (hown : ∀ n ∈ nodes, ∀ a ∈ out n, owner a = ident n) {n : ν} (hn : n ∈ nodes) {a : α}
    (ha : owner a = ident n) : (nodes.flatMap out).count a = (out n).count a := by
  induction nodes with
  | nil => exact absurd hn List.not_mem_nil
  | cons n' nodes ih =>
      rw [List.map_cons, List.nodup_cons] at hid
      have hrest : ∀ n ∈ nodes, ∀ a ∈ out n, owner a = ident n :=
        fun n hn => hown n (List.mem_cons_of_mem _ hn)
      rw [List.flatMap_cons, List.count_append]
      rcases List.mem_cons.mp hn with rfl | hn
      · have hzero : (nodes.flatMap out).count a = 0 := by
          apply count_flatMap_of_no_owner hrest
          intro m hm heq
          apply hid.1
          rw [← ha, heq]
          exact List.mem_map_of_mem hm
        omega
      · have hzero : (out n').count a = 0 := by
          apply count_eq_zero_of_owner (hown n' List.mem_cons_self)
          intro heq
          apply hid.1
          rw [← heq, ha]
          exact List.mem_map_of_mem hn
        rw [ih hid.2 hrest hn]
        omega

end

/-- Some of the elements, picked by their positions. -/
theorem map_fst_filter_zipIdx_sublist {α : Type*} (l : List α) (p : α × ℕ → Bool) :
    ((l.zipIdx.filter p).map Prod.fst) <+ l := by
  have h := (List.filter_sublist (l := l.zipIdx) (p := p)).map Prod.fst
  rwa [List.zipIdx_map_fst] at h

/-! ## The requests of SWAP -/

namespace SettlementManager

/-- One match of SWAP: the node stays who it is, and a request is about this match and from
its gas payer. -/
theorem swapMatch_cases [HexCrate] {mgr : SettlementManager} {ctx : SwapContext} {m : Match}
    {r : SettlementManager × Option SettleRequest} (h : mgr.swapMatch ctx m = some r) :
    r.1.ownNftId = mgr.ownNftId ∧
      (r.2 = none ∨ r.2 = some ⟨m, m.hashHex, true⟩ ∧ m.gasPayerNftId = mgr.ownNftId) := by
  have hstep : mgr.step (.swap ctx m) = some r.1 := by
    rw [step, h]
    rfl
  have hown := ownNftId_step hstep
  refine ⟨hown, ?_⟩
  obtain ⟨⟨e | u, mgr'⟩, hp, rfl⟩ := Option.map_eq_some_iff.mp h
  · exact .inl rfl
  · simp only [submitMatch] at hown ⊢
    split_ifs at hown ⊢ with hgas
    · cases hdead : ctx.deadNft m with
      | some dead => exact .inl rfl
      | none =>
          rw [hdead] at hown
          exact .inr ⟨rfl, hgas.trans hown⟩
    · exact .inl rfl

/-- **Requests of SWAP.**  A node hands over matches that it pays for, in their order. -/
theorem requests_sublist [HexCrate] {mgr : SettlementManager} {ctx : SwapContext} {ms : List Match}
    {r : SettlementManager × List SettleRequest} (h : mgr.swapMatches ctx ms = some r) :
    r.2.map SettleRequest.matchData <+ ms.filter fun m => m.gasPayerNftId = mgr.ownNftId := by
  induction ms generalizing mgr r with
  | nil =>
      obtain rfl := Option.some.inj h
      exact List.Sublist.refl _
  | cons m ms ih =>
      obtain ⟨⟨mgr₁, request⟩, h₁, hrest⟩ := Option.bind_eq_some_iff.mp h
      obtain ⟨⟨mgr₂, requests⟩, h₂, rfl⟩ := Option.map_eq_some_iff.mp hrest
      obtain ⟨hown, hreq⟩ := swapMatch_cases h₁
      have htail := ih h₂
      dsimp only at hown hreq htail ⊢
      rw [hown] at htail
      rcases hreq with rfl | ⟨rfl, hgas⟩
      · apply htail.trans
        exact (List.sublist_cons_self m ms).filter _
      · rw [List.filter_cons_of_pos (by simpa using hgas)]
        exact htail.cons_cons m

/-- The registration of a match succeeds, and no party of it is known to be inactive. -/
def Accepts [HexCrate] (mgr : SettlementManager) (ctx : SwapContext) (m : Match) : Prop :=
  (mgr.registerMatch (ctx.terms mgr.ownNftId m)).map Prod.fst = some (.ok ()) ∧
    ctx.deadNft m = none

/-- A node accepts the matches that it pays for. -/
def AcceptsOwn [HexCrate] (mgr : SettlementManager) : Input → Prop
  | .swap ctx m => m.gasPayerNftId = mgr.ownNftId → mgr.Accepts ctx m
  | _ => True

/-- An accepted match is handed over by its gas payer. -/
theorem swapMatch_of_accepts [HexCrate] {mgr : SettlementManager} {ctx : SwapContext} {m : Match}
    {r : SettlementManager × Option SettleRequest} (h : mgr.swapMatch ctx m = some r)
    (hgas : m.gasPayerNftId = mgr.ownNftId) (hacc : mgr.Accepts ctx m) :
    r.2 = some ⟨m, m.hashHex, true⟩ := by
  obtain ⟨hreg, hdead⟩ := hacc
  have hown := (swapMatch_cases h).1
  obtain ⟨⟨e | u, mgr'⟩, hp, rfl⟩ := Option.map_eq_some_iff.mp h
  · rw [hp] at hreg
    cases hreg
  · simp only [submitMatch, hdead] at hown ⊢
    split_ifs at hown ⊢ with hpays
    · rfl
    · exact absurd (hgas.trans hown.symm) hpays

/-- A node that accepts the matches that it pays for hands over all of them. -/
theorem requests_eq [HexCrate] {mgr : SettlementManager} {ctx : SwapContext} {ms : List Match}
    {r : SettlementManager × List SettleRequest} (h : mgr.swapMatches ctx ms = some r)
    (hacc : system.Follows AcceptsOwn mgr (ms.map (.swap ctx))) :
    r.2.map SettleRequest.matchData
      = ms.filter fun m => m.gasPayerNftId = mgr.ownNftId := by
  induction ms generalizing mgr r with
  | nil =>
      obtain rfl := Option.some.inj h
      rfl
  | cons m ms ih =>
      obtain ⟨⟨mgr₁, request⟩, h₁, hrest⟩ := Option.bind_eq_some_iff.mp h
      obtain ⟨⟨mgr₂, requests⟩, h₂, rfl⟩ := Option.map_eq_some_iff.mp hrest
      have hstep : system.step mgr (.swap ctx m) = some mgr₁ := by
        rw [system_step, step, h₁]
        rfl
      rw [List.map_cons, System.follows_cons] at hacc
      obtain ⟨hown, hreq⟩ := swapMatch_cases h₁
      have hnext : system.Follows AcceptsOwn mgr₁ (ms.map (.swap ctx)) := hacc.2 mgr₁ hstep
      have htail := ih h₂ hnext
      dsimp only at hown hreq htail ⊢
      rw [hown] at htail
      rw [List.map_append, htail]
      -- a match that the node pays for is accepted, so it makes a request
      by_cases hgas : m.gasPayerNftId = mgr.ownNftId
      · have hsome : request = some ⟨m, m.hashHex, true⟩ :=
          swapMatch_of_accepts h₁ hgas (hacc.1 hgas)
        rw [List.filter_cons_of_pos (by simpa using hgas), hsome]
        rfl
      · rcases hreq with rfl | ⟨-, hpays⟩
        · rw [List.filter_cons_of_neg (by simpa using hgas)]
          rfl
        · exact absurd hpays hgas

end SettlementManager

/-! ## The nodes of a pool -/

section

variable [Externals]

/-- A node that runs SWAP on a batch: its MATCH phase saw the reveals and the markets of the
batch in some order, and its channel to the worker takes the `i`-th request if `queued i`. -/
structure SwapNode (input : MatchingInput) where
  mgr : SettlementManager
  ctx : SwapContext
  reveals : List RevealedOrder
  markets : List MarketConfig
  queued : ℕ → Bool
  outcome : SettlementManager × List SettleRequest
  reveals_perm : reveals ~ input.reveals
  markets_perm : markets ~ input.markets
  ran : mgr.swapMatches ctx (runMatching ⟨input.batchId, input.poolId, reveals, markets⟩)
    = some outcome

namespace SwapNode

variable {input : MatchingInput}

/-- The NFT of the node. -/
def nftId (n : SwapNode input) : UInt64 := n.mgr.ownNftId

/-- The matches that the node hands to its worker. -/
def submitted (n : SwapNode input) : List Match :=
  ((n.outcome.2.zipIdx.filter fun p => n.queued p.2).map Prod.fst).map SettleRequest.matchData

/-- The node accepts the matches that it pays for, and its channel takes them all. -/
def Unhindered (n : SwapNode input) : Prop :=
  SettlementManager.system.Follows SettlementManager.AcceptsOwn n.mgr
      ((runMatching input).map (.swap n.ctx)) ∧
    ∀ i, n.queued i = true

/-- What `runMatching` needs in order not to depend on the order of its input. -/
def Distinct (input : MatchingInput) : Prop :=
  (input.reveals.map RevealedOrder.orderHash).Nodup ∧
    (input.markets.map MarketConfig.symbol).Nodup

/-- The node computes the matches of the batch. -/
theorem ran_eq (hinput : Distinct input) (n : SwapNode input) :
    n.mgr.swapMatches n.ctx (runMatching input) = some n.outcome := by
  have hties := eq_of_nodup_orderHash hinput.1
  have hmarkets := lookup_marketMap_perm hinput.2 n.markets_perm.symm
  have hsame := runMatching_perm input.batchId input.poolId n.reveals_perm.symm hties hmarkets
  rw [← n.ran, ← hsame]

/-- A node submits some of the matches that it pays for, -/
theorem submitted_sublist (hinput : Distinct input) (n : SwapNode input) :
    n.submitted <+ (runMatching input).filter fun m => m.gasPayerNftId = n.nftId := by
  apply List.Sublist.trans _ (SettlementManager.requests_sublist (n.ran_eq hinput))
  exact (map_fst_filter_zipIdx_sublist _ _).map _

/-- and all of them where nothing hinders it. -/
theorem submitted_eq (hinput : Distinct input) (n : SwapNode input) (hn : n.Unhindered) :
    n.submitted = (runMatching input).filter fun m => m.gasPayerNftId = n.nftId := by
  have hall : n.outcome.2.zipIdx.filter (fun p => n.queued p.2) = n.outcome.2.zipIdx := by
    rw [List.filter_eq_self]
    intro p _
    exact hn.2 p.2
  rw [submitted, hall, List.zipIdx_map_fst]
  exact SettlementManager.requests_eq (n.ran_eq hinput) hn.1

/-- **One submitter.**  Among nodes with different NFTs that saw the same reveals and markets,
only the gas payer submits a match, which is a party of it; all together they submit no match
more often than it was computed, and exactly as often if its payer is there and unhindered. -/
theorem one_submitter (hinput : Distinct input) (nodes : List (SwapNode input))
    (hid : (nodes.map nftId).Nodup) :
    (∀ n ∈ nodes, ∀ m ∈ n.submitted, m ∈ runMatching input ∧ m.gasPayerNftId = n.nftId ∧
      (n.nftId = m.buyer.order.nftId ∨ n.nftId = m.seller.order.nftId)) ∧
    (∀ m, (nodes.flatMap submitted).count m ≤ (runMatching input).count m) ∧
    ∀ m, (∃ n ∈ nodes, n.nftId = m.gasPayerNftId ∧ n.Unhindered) →
      (nodes.flatMap submitted).count m = (runMatching input).count m := by
  have hmem : ∀ n ∈ nodes, ∀ m ∈ n.submitted, m ∈ runMatching input ∧
      m.gasPayerNftId = n.nftId := by
    intro n _ m hm
    have h := (n.submitted_sublist hinput).subset hm
    rw [List.mem_filter, decide_eq_true_eq] at h
    exact h
  have hown : ∀ n ∈ nodes, ∀ m ∈ n.submitted, m.gasPayerNftId = n.nftId :=
    fun n hn m hm => (hmem n hn m hm).2
  refine ⟨?_, ?_, ?_⟩
  · intro n hn m hm
    obtain ⟨hrun, hgas⟩ := hmem n hn m hm
    refine ⟨hrun, hgas, ?_⟩
    rw [← hgas]
    exact (parties_of_mem_runMatching hrun).2
  · intro m
    -- the ids differ, so at most one node pays for the match
    by_cases hex : ∃ n ∈ nodes, m.gasPayerNftId = n.nftId
    · obtain ⟨n, hn, hgas⟩ := hex
      rw [count_flatMap_of_owner hid hown hn hgas]
      exact ((n.submitted_sublist hinput).trans List.filter_sublist).count_le m
    · rw [count_flatMap_of_no_owner hown fun n hn heq => hex ⟨n, hn, heq⟩]
      exact Nat.zero_le _
  · rintro m ⟨n, hn, hgas, hfree⟩
    rw [count_flatMap_of_owner hid hown hn hgas.symm, n.submitted_eq hinput hfree]
    exact List.count_filter (by simpa using hgas.symm)

end SwapNode

end

/-! ## Over a run -/

namespace RunLoop

/-- The request in an output. -/
def requestOf : LoopOutput → Option SettleRequest
  | .settle request => some request
  | _ => none

/-- The matches that some outputs hand to the worker. -/
def submittedOf (outputs : List LoopOutput) : List Match :=
  (outputs.filterMap requestOf).map SettleRequest.matchData

/-- Outputs one after another submit one after another. -/
theorem submittedOf_append (os os' : List LoopOutput) :
    submittedOf (os ++ os') = submittedOf os ++ submittedOf os' := by
  rw [submittedOf, List.filterMap_append, List.map_append]
  rfl

/-- Outputs without requests submit nothing. -/
theorem submittedOf_eq_nil {os : List LoopOutput} (h : ∀ o ∈ os, requestOf o = none) :
    submittedOf os = [] := by
  rw [submittedOf, List.filterMap_eq_nil_iff.mpr h]
  rfl

/-- Requests submit their matches. -/
theorem submittedOf_settle (requests : List SettleRequest) :
    submittedOf (requests.map .settle) = requests.map SettleRequest.matchData := by
  rw [submittedOf, List.filterMap_map]
  congr 1
  exact List.filterMap_some

/-- Messages submit nothing. -/
theorem submittedOf_publishAll (msgs : List (UInt64 × GossipMessage)) :
    submittedOf (publishAll msgs) = [] := by
  apply submittedOf_eq_nil
  intro o ho
  obtain ⟨p, -, rfl⟩ := List.mem_map.mp ho
  rfl

/-- The matches that MATCH computed, in order. -/
def foundIn (events : List MatchEvent) : List Match :=
  events.flatMap fun
    | .stored found => found
    | .swapped _ => []

/-- What SWAP takes was found before. -/
theorem registeredIn_sublist {ms : List Match} {events : List MatchEvent}
    (h : Coherent ms events) : registeredIn events <+ ms ++ foundIn events := by
  induction events generalizing ms with
  | nil => exact List.nil_sublist _
  | cons e events ih =>
      cases e with
      | stored found => exact (ih h).trans (List.sublist_append_right ms _)
      | swapped taken =>
          obtain ⟨rfl, h⟩ := h
          exact (List.Sublist.refl taken).append (ih h)

/-! ### The node stays who it is -/

section

variable [Externals]

/-- The NFT that the settlement manager works for. -/
def payer (l : RunLoop) : UInt64 := l.settlement.ownNftId

/-- The handler starts with the NFT of the step before. -/
theorem payer_atHandler (cfg : RunConfig) (l : RunLoop) (obs : Observation) :
    (l.atHandler cfg obs).1.payer = l.payer :=
  SettlementManager.ownNftId_run (l.settlement_atHandler cfg obs)

/-- **Step.**  The node works for the same NFT. -/
theorem payer_step {cfg : RunConfig} {l l' : RunLoop} {i : Input}
    (h : step cfg l i = some l') : l'.payer = l.payer :=
  SettlementManager.ownNftId_run (settlement_step h)

/-! ### What an input hands over -/

/-- The matches that an input hands to the worker. -/
def submitted (cfg : RunConfig) (l : RunLoop) (i : Input) : Option (List Match) :=
  (l.handle cfg i).map fun r => submittedOf r.2

/-- The end of a block submits nothing. -/
theorem submittedOf_finish (obs : Observation) (newPhase : Phase) (newBatchId : UInt64)
    (r : RunLoop × List LoopOutput) :
    submittedOf (finish obs newPhase newBatchId r).2 = submittedOf r.2 := by
  have hnotices : ∀ events : List StrategyEvent,
      submittedOf (events.map LoopOutput.strategy) = [] := by
    intro events
    apply submittedOf_eq_nil
    intro o ho
    obtain ⟨event, -, rfl⟩ := List.mem_map.mp ho
    rfl
  show submittedOf (r.2 ++ List.map LoopOutput.strategy _) = _
  rw [submittedOf_append, hnotices, List.append_nil]

/-- Neither does what comes before the handler. -/
theorem submittedOf_atHandler (cfg : RunConfig) (l : RunLoop) (obs : Observation) :
    submittedOf (l.atHandler cfg obs).2 = [] := by
  apply submittedOf_eq_nil
  unfold atHandler
  split_ifs
  · intro o ho
    unfold boundary reassignPool at ho
    dsimp only at ho
    split_ifs at ho <;> simp only [List.append_nil, List.nil_append, List.cons_append,
      List.mem_cons, List.not_mem_nil, or_false] at ho
    · rcases ho with rfl | rfl <;> rfl
    all_goals rw [ho]; rfl
  · intro o ho
    cases ho

/-- SWAP hands over matches that it takes and that the node pays for. -/
theorem submittedOf_swapPhase {cfg : RunConfig} {l : RunLoop} {obs : Observation}
    {r : RunLoop × List LoopOutput} (h : l.swapPhase cfg obs = some r) :
    submittedOf r.2 <+
      (if cfg.hasSubmitter then (l.drain obs.late).core.currentMatches else []).filter
        fun m => m.gasPayerNftId = l.payer := by
  rcases swapPhase_cases h with ⟨hsub, p, hp, rfl⟩ | ⟨-, rfl⟩
  · have hsome : (p.2.zipIdx.filter (fun q => obs.queued q.2)).map
          (fun q => LoopOutput.settle q.1)
        = ((p.2.zipIdx.filter (fun q => obs.queued q.2)).map Prod.fst).map .settle := by
      rw [List.map_map]
      rfl
    dsimp only
    rw [if_pos hsub, hsome, submittedOf_settle]
    apply List.Sublist.trans _ (SettlementManager.requests_sublist hp)
    exact (map_fst_filter_zipIdx_sublist _ _).map _
  · exact List.nil_sublist _

/-- Neither do the handlers other than that of SWAP. -/
theorem submittedOf_phaseHandler {cfg : RunConfig} {l : RunLoop} {obs : Observation}
    {newBatchId : UInt64} {newPhase : Phase} {r : RunLoop × List LoopOutput}
    (h : l.phaseHandler cfg obs newBatchId newPhase = some r) (hne : newPhase ≠ .swap) :
    submittedOf r.2 = [] := by
  cases newPhase with
  | commit =>
      obtain ⟨orders, -, rfl⟩ := Option.map_eq_some_iff.mp h
      exact submittedOf_publishAll _
  | reveal =>
      obtain rfl := Option.some.inj h
      exact submittedOf_publishAll _
  | «match» =>
      obtain rfl := Option.some.inj h
      rfl
  | swap => exact absurd rfl hne

/-- **Step.**  An input hands over matches that SWAP takes and that the node pays for. -/
theorem submitted_sublist {cfg : RunConfig} {l : RunLoop} {i : Input}
    {r : RunLoop × List LoopOutput} (hr : l.handle cfg i = some r) :
    submittedOf r.2 <+ (registeredIn (matchEvent cfg l i).toList).filter
      fun m => m.gasPayerNftId = l.payer := by
  cases handle_cases hr with
  | gossip msg => exact List.nil_sublist _
  | old obs hold => exact List.nil_sublist _
  | skipped obs hnew htrans hbehind => exact List.nil_sublist _
  | quiet obs hnew hquiet =>
      rw [submittedOf_finish]
      exact List.nil_sublist _
  | handled obs r₀ hruns hr₀ =>
      rw [submittedOf_finish, submittedOf_append, submittedOf_atHandler, List.nil_append]
      by_cases hswap : l.newPhase obs = .swap
      · rw [hswap] at hr₀
        have h := submittedOf_swapPhase hr₀
        rw [payer_atHandler] at h
        rw [registeredIn_matchEvent, registeredBy_swap hruns hswap]
        exact h
      · rw [submittedOf_phaseHandler hr₀ hswap]
        exact List.nil_sublist _

/-- The matches that a run hands to the worker, in order. -/
def submittedIn (cfg : RunConfig) (l : RunLoop) (is : List Input) : List Match :=
  ((system cfg).trace (submitted cfg) l is).flatten

/-- **Run.** -/
theorem submittedIn_sublist {cfg : RunConfig} {l l' : RunLoop} {is : List Input}
    (hrun : (system cfg).run l is = some l') :
    submittedIn cfg l is <+
      (registeredIn ((system cfg).trace (matchEvent cfg) l is)).filter
        fun m => m.gasPayerNftId = l.payer := by
  induction is generalizing l with
  | nil => exact List.nil_sublist _
  | cons i is ih =>
      obtain ⟨l₁, h₁, h₂⟩ := Option.bind_eq_some_iff.mp hrun
      obtain ⟨r, hr, rfl⟩ := Option.map_eq_some_iff.mp h₁
      have hhead := submitted_sublist hr
      have htail := ih h₂
      rw [payer_step h₁] at htail
      have hsubmitted : (submitted cfg l i).toList = [submittedOf r.2] := by
        rw [submitted, hr]
        rfl
      rw [submittedIn, System.trace_cons _ _ h₁, System.trace_cons _ _ h₁, hsubmitted,
        List.flatten_append, List.flatten_singleton, registeredIn, List.flatMap_append,
        List.filter_append]
      exact hhead.append htail

/-- A node without a submitter registers nothing. -/
theorem registeredIn_of_no_submitter {cfg : RunConfig} (hsub : cfg.hasSubmitter = false)
    {l l' : RunLoop} {is : List Input} (hrun : (system cfg).run l is = some l') :
    registeredIn ((system cfg).trace (matchEvent cfg) l is) = [] := by
  induction is generalizing l with
  | nil => rfl
  | cons i is ih =>
      obtain ⟨l₁, h₁, h₂⟩ := Option.bind_eq_some_iff.mp hrun
      have hhead : registeredIn (matchEvent cfg l i).toList = [] := by
        rw [registeredIn_matchEvent]
        cases i with
        | gossip msg => rfl
        | block obs =>
            rw [registeredBy_settlementCalls, hsub,
              if_neg fun hall => Bool.false_ne_true hall.2.2]
      rw [System.trace_cons _ _ h₁, registeredIn, List.flatMap_append]
      exact List.append_eq_nil_iff.mpr ⟨hhead, ih h₂⟩

/-- **Submitted at most once.**  Whatever the node observes, the matches that it hands to the
worker are some of those that its MATCH handlers computed, each at most as often and in the
same order, and all of them are matches that it pays for. -/
theorem submitted_at_most_once {cfg : RunConfig} {epoch : BatchEpoch} {params : BatchParams}
    {numPools height : UInt64} {tracker : EscrowTracker} {gasBalance : Option UInt64}
    {is : List Input} {l : RunLoop}
    (hrun : (system cfg).run (start cfg epoch params numPools height tracker gasBalance) is
      = some l) :
    submittedIn cfg (start cfg epoch params numPools height tracker gasBalance) is <+
      (foundIn ((system cfg).trace (matchEvent cfg)
        (start cfg epoch params numPools height tracker gasBalance) is)).filter
          fun m => m.gasPayerNftId = cfg.nftId := by
  have hsome := submittedIn_sublist hrun
  have hpayer : (start cfg epoch params numPools height tracker gasBalance).payer
      = cfg.nftId := rfl
  have hnone : (start cfg epoch params numPools height tracker gasBalance).core.currentMatches
      = [] := rfl
  rw [hpayer] at hsome
  by_cases hsub : cfg.hasSubmitter = true
  · have hcoh := coherent_of_run hsub hrun
    have hfound := registeredIn_sublist hcoh
    rw [hnone, List.nil_append] at hfound
    exact hsome.trans (hfound.filter _)
  · rw [registeredIn_of_no_submitter (by simpa using hsub) hrun] at hsome
    exact hsome.trans (List.nil_sublist _)

end

end RunLoop

/-! ## A match between two nodes -/

section

attribute [local instance] sampleExternals

/-- The sell of NFT 1 and the buy of NFT 2. -/
def soldBatch : MatchingInput where
  batchId := 7
  poolId := 0
  reveals := [⟨sampleBuy, buySignature, orderHash sampleBuy⟩,
    ⟨sampleSell, sellSignature, orderHash sampleSell⟩]
  markets := [⟨emmKay, 1⟩]

/-- A tracker with 100 `KAY`. -/
def buyerTracker : EscrowTracker := EscrowTracker.new.setConfirmed "KAY" 100

/-- A node with an NFT and a tracker, that saw the reveals in the order `reveals`. -/
def swapNode (nftId : UInt64) (tracker : EscrowTracker) (reveals : List RevealedOrder)
    (hperm : reveals ~ soldBatch.reveals) (hran : ((SettlementManager.new tracker
      nftId).swapMatches sampleSwap (runMatching ⟨7, 0, reveals, soldBatch.markets⟩)).isSome) :
    SwapNode soldBatch where
  mgr := SettlementManager.new tracker nftId
  ctx := sampleSwap
  reveals := reveals
  markets := soldBatch.markets
  queued _ := true
  outcome := _
  reveals_perm := hperm
  markets_perm := List.Perm.refl _
  ran := (Option.some_get hran).symm

/-- The seller, the buyer, who saw the reveals in the other order, and a third party. -/
def swapNodes : List (SwapNode soldBatch) :=
  [swapNode 1 RunLoop.sampleTracker soldBatch.reveals (List.Perm.refl _) (by decide +kernel),
    swapNode 2 buyerTracker soldBatch.reveals.reverse (List.reverse_perm _) (by decide +kernel),
    swapNode 3 RunLoop.sampleTracker soldBatch.reveals (List.Perm.refl _) (by decide +kernel)]

/-- The buyer pays the gas of the match, and submits it once; nobody else does. -/
theorem buyer_submits :
    (swapNodes.flatMap SwapNode.submitted).count sampleMatch = 1 ∧
      ∀ n ∈ swapNodes, ∀ m ∈ n.submitted, m ∈ runMatching soldBatch ∧ n.nftId = 2 := by
  have hinput : SwapNode.Distinct soldBatch := by
    constructor <;> decide +kernel
  have hid : (swapNodes.map SwapNode.nftId).Nodup := by decide +kernel
  obtain ⟨hparty, -, hall⟩ := SwapNode.one_submitter hinput swapNodes hid
  have hpayer : ∀ m ∈ runMatching soldBatch, m.gasPayerNftId = 2 := by decide +kernel
  constructor
  · rw [hall sampleMatch]
    · decide +kernel
    · refine ⟨swapNodes.get ⟨1, by decide⟩, List.get_mem _ _, by decide +kernel, ?_, fun _ => rfl⟩
      have hmatches : runMatching soldBatch = [sampleMatch] := by decide +kernel
      rw [hmatches]
      refine ⟨fun _ => ?_, fun _ _ => trivial⟩
      constructor
      · decide +kernel
      · rfl
  · intro n hn m hm
    obtain ⟨hmem, hgas, -⟩ := hparty n hn m hm
    refine ⟨hmem, ?_⟩
    rw [← hgas]
    exact hpayer m hmem

namespace RunLoop

/-- NFT 2 as the node, that has nothing but `KAY`. -/
def buyerConfig : RunConfig := { sampleConfig with nftId := 2 }

/-- At the first block of batch 7 the chain knows both keys. -/
def keysBlock : Input :=
  .block { silentBlock 110 with
    keyOrder := [1, 2]
    keyAnswer nftId := .found (if nftId = 1 then sellerKey else buyerKey) }

/-- Both reveals arrive by gossip, before the keys are known and again after it; then MATCH
and SWAP of batch 7 run. -/
def boughtInputs : List Input :=
  [.gossip (.reveal 7 0 sampleSell sellSignature), buyArrives, keysBlock,
    .gossip (.reveal 7 0 sampleSell sellSignature), buyArrives, .block (silentBlock 117),
    .block (silentBlock 118)]

/-- That node at start-up. -/
def buyerLoop : RunLoop :=
  start buyerConfig ⟨100, 6⟩ ⟨10, 4, 3, 1, 2, 3⟩ 1 105 buyerTracker (some 10000000000)

/-- The node pays for the match of the two reveals and hands it over. -/
theorem match_of_both_submitted :
    (submittedIn buyerConfig buyerLoop boughtInputs).length = 1 ∧
      submittedIn buyerConfig buyerLoop boughtInputs <+
        (foundIn ((system buyerConfig).trace (matchEvent buyerConfig) buyerLoop
          boughtInputs)).filter fun m => m.gasPayerNftId = 2 := by
  obtain ⟨hlength, hruns⟩ : (submittedIn buyerConfig buyerLoop boughtInputs).length = 1 ∧
      ((system buyerConfig).run buyerLoop boughtInputs).isSome := by
    decide +kernel
  obtain ⟨l, hrun⟩ := Option.isSome_iff_exists.mp hruns
  exact ⟨hlength, submitted_at_most_once hrun⟩

end RunLoop

end
