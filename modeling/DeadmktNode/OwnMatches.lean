/-
# The matches between MATCH and SWAP

MATCH stores the matches of a batch and SWAP takes them out to register them.  Nothing else
touches them, and the next MATCH replaces what is still there.  So the settlement manager is
called with the stored matches once, before they are replaced, exactly when a SWAP handler runs
in between.
-/
import DeadmktNode.SettlementCalls

namespace RunLoop

/-! ## What happens to the stored matches -/

/-- The two things that happen to the stored matches. -/
inductive MatchEvent where
  /-- MATCH stores new matches in their place -/
  | stored (found : List Match)
  /-- SWAP takes them out and registers `taken` -/
  | swapped (taken : List Match)
deriving DecidableEq

/-- Is our own NFT a party of the match? -/
def Involves (nftId : UInt64) (m : Match) : Prop :=
  m.buyer.order.nftId = nftId ∨ m.seller.order.nftId = nftId

instance (nftId : UInt64) (m : Match) : Decidable (Involves nftId m) :=
  inferInstanceAs (Decidable (_ ∨ _))

/-- The own matches of a list. -/
def ownMatches (nftId : UInt64) (ms : List Match) : List Match :=
  ms.filter fun m => Involves nftId m

/-- The matches that are registered, in order. -/
def registeredIn (events : List MatchEvent) : List Match :=
  events.flatMap fun
    | .stored _ => []
    | .swapped taken => taken

/-- Nothing is stored. -/
def NoStore (events : List MatchEvent) : Prop := ∀ found, MatchEvent.stored found ∉ events

/-- From the stored matches `ms` on, each SWAP takes what is stored then. -/
def Coherent : List Match → List MatchEvent → Prop
  | _, [] => True
  | _, .stored found :: events => Coherent found events
  | ms, .swapped taken :: events => taken = ms ∧ Coherent [] events

/-- From a MATCH on, the events are coherent with what it stored. -/
theorem coherent_stored {ms found : List Match} {pre events : List MatchEvent}
    (h : Coherent ms (pre ++ .stored found :: events)) : Coherent found events := by
  induction pre generalizing ms with
  | nil => exact h
  | cons e pre ih =>
      cases e with
      | stored found' => exact ih h
      | swapped taken => exact ih h.2

/-- As long as nothing is stored, the first SWAP registers all that is there, and the others
nothing. -/
theorem registeredIn_of_coherent {ms : List Match} {mid post : List MatchEvent}
    (h : Coherent ms (mid ++ post)) (hmid : NoStore mid) :
    ((∃ taken, .swapped taken ∈ mid) → registeredIn mid = ms) ∧
      ((¬ ∃ taken, .swapped taken ∈ mid) → registeredIn mid = []) := by
  induction mid generalizing ms with
  | nil => exact ⟨fun ⟨_, hmem⟩ => absurd hmem List.not_mem_nil, fun _ => rfl⟩
  | cons e mid ih =>
      cases e with
      | stored found => exact absurd List.mem_cons_self (hmid found)
      | swapped taken =>
          obtain ⟨rfl, h⟩ := h
          obtain ⟨hsome, hnone⟩ := ih h fun found hf => hmid found (List.mem_cons_of_mem _ hf)
          have hrest : registeredIn mid = [] := by
            by_cases hex : ∃ taken, .swapped taken ∈ mid
            · exact hsome hex
            · exact hnone hex
          refine ⟨fun _ => ?_, fun hex => absurd ⟨taken, List.mem_cons_self⟩ hex⟩
          change taken ++ registeredIn mid = taken
          rw [hrest, List.append_nil]

/-! ## The events of the loop -/

section

variable [Externals]

/-- What an input does to the stored matches; SWAP registers those with which the settlement
manager is called. -/
def matchEvent (cfg : RunConfig) (l : RunLoop) : Input → Option MatchEvent
  | .gossip _ => none
  | .block obs =>
      if l.RunsHandler obs then
        match l.newPhase obs with
        | .match => some (.stored ((l.atHandler cfg obs).1.matchPhase obs).core.currentMatches)
        | .swap => some (.swapped
            (SettlementManager.registeredBy (l.settlementCalls cfg (.block obs))))
        | _ => none
      else none

/-- With a submitter, SWAP registers what is stored. -/
theorem registeredBy_swap {cfg : RunConfig} {l : RunLoop} {obs : Observation}
    (hruns : l.RunsHandler obs) (hswap : l.newPhase obs = .swap) :
    SettlementManager.registeredBy (l.settlementCalls cfg (.block obs))
      = if cfg.hasSubmitter then (l.ready cfg obs).core.currentMatches else [] := by
  rw [registeredBy_settlementCalls]
  by_cases hsub : cfg.hasSubmitter = true
  · rw [if_pos ⟨hruns, hswap, hsub⟩, if_pos hsub]
  · rw [if_neg fun hall => hsub hall.2.2, if_neg hsub]

/-- Outside SWAP nothing is registered: the events show all registrations. -/
theorem registeredIn_matchEvent (cfg : RunConfig) (l : RunLoop) (i : Input) :
    registeredIn (matchEvent cfg l i).toList
      = SettlementManager.registeredBy (l.settlementCalls cfg i) := by
  cases i with
  | gossip msg => rfl
  | block obs =>
      have hall := registeredBy_settlementCalls cfg l obs
      by_cases hruns : l.RunsHandler obs
      · rw [matchEvent, if_pos hruns]
        cases hphase : l.newPhase obs with
        | swap => exact List.append_nil _
        | _ =>
            rw [hall, if_neg fun h => by rw [hphase] at h; cases h.2.1]
            rfl
      · rw [matchEvent, if_neg hruns, hall, if_neg fun h => hruns h.1]
        rfl

/-- The events of a run show all its registrations, in order. -/
theorem registeredIn_trace {cfg : RunConfig} {l l' : RunLoop} {is : List Input}
    (hrun : (system cfg).run l is = some l') :
    registeredIn ((system cfg).trace (matchEvent cfg) l is)
      = SettlementManager.registeredBy (settlementCallsIn cfg l is) := by
  induction is generalizing l with
  | nil => rfl
  | cons i is ih =>
      obtain ⟨l₁, h₁, h₂⟩ := Option.bind_eq_some_iff.mp hrun
      rw [System.trace_cons _ _ h₁, registeredIn, List.flatMap_append, settlementCallsIn,
        System.taken_cons _ _ h₁, SettlementManager.registeredBy_append]
      exact congrArg₂ (· ++ ·) (registeredIn_matchEvent cfg l i) (ih h₂)

omit [Externals] in
/-- The end of a block leaves the stored matches alone. -/
theorem currentMatches_finish (c : Core) (obs : Observation) :
    (c.finish obs).currentMatches = c.currentMatches := by
  have hfollow : ∀ (c : Core) (event : ChainEvent),
      (c.follow event).currentMatches = c.currentMatches := by
    intro c event
    cases event <;> rfl
  exact foldl_preserves (V := Core.currentMatches) hfollow (c.polled obs) c

/-- When the handler runs, the matches are still stored. -/
theorem currentMatches_atHandler (cfg : RunConfig) (l : RunLoop) (obs : Observation) :
    (l.atHandler cfg obs).1.core.currentMatches = l.core.currentMatches := by
  rw [core_atHandler]
  split_ifs <;> rfl

/-- **Step.**  With a submitter, the event of a step says what it does to the stored
matches. -/
theorem coherent_step {cfg : RunConfig} (hsub : cfg.hasSubmitter = true) {l l' : RunLoop}
    {i : Input} (hstep : step cfg l i = some l') {events : List MatchEvent}
    (h : Coherent l'.core.currentMatches events) :
    Coherent l.core.currentMatches ((matchEvent cfg l i).toList ++ events) := by
  cases step_core hstep with
  | gossip msg hcore => rwa [hcore] at h
  | old obs hold hcore =>
      have hnone : matchEvent cfg l (.block obs) = none :=
        if_neg fun hruns => UInt64.not_lt.mpr hold hruns.1
      rw [hnone]
      rwa [hcore] at h
  | skipped obs htrans hbehind hcore =>
      have hnone : matchEvent cfg l (.block obs) = none :=
        if_neg fun hruns => hruns.2.2 hbehind
      rw [hnone]
      rwa [hcore] at h
  | quiet obs hnew hquiet hcore =>
      have hnone : matchEvent cfg l (.block obs) = none :=
        if_neg fun hruns => hquiet hruns.2.1
      rw [hnone]
      rwa [hcore, currentMatches_finish] at h
  | handled obs r hruns hr hcore =>
      -- only MATCH stores and only SWAP takes
      have hat := l.currentMatches_atHandler cfg obs
      rw [hcore, currentMatches_finish] at h
      rw [matchEvent, if_pos hruns]
      cases hphase : l.newPhase obs with
      | commit =>
          rw [hphase] at hr
          obtain ⟨nftId, poolId, orders, -, hr⟩ := core_commitPhase hr
          rw [hr] at h
          exact hat ▸ h
      | reveal =>
          rw [hphase] at hr
          obtain rfl := Option.some.inj hr
          rw [core_revealPhase, hat] at h
          exact h
      | «match» =>
          rw [hphase] at hr
          obtain rfl := Option.some.inj hr
          exact h
      | swap =>
          rw [hphase] at hr
          rw [core_swapPhase hr, if_pos hsub] at h
          refine ⟨?_, h⟩
          rw [registeredBy_swap hruns hphase, if_pos hsub, ready, core_drain, hat]

/-- **Run.** -/
theorem coherent_of_run {cfg : RunConfig} (hsub : cfg.hasSubmitter = true) {l l' : RunLoop}
    {is : List Input} (hrun : (system cfg).run l is = some l') :
    Coherent l.core.currentMatches ((system cfg).trace (matchEvent cfg) l is) := by
  induction is generalizing l with
  | nil => trivial
  | cons i is ih =>
      obtain ⟨l₁, h₁, h₂⟩ := Option.bind_eq_some_iff.mp hrun
      rw [System.trace_cons _ _ h₁]
      exact coherent_step hsub h₁ (ih h₂)

end

/-! ## Every own match is registered -/

/-- Every own match is registered exactly once before the next MATCH replaces it, and never
twice. -/
structure EachRegistered (nftId : UInt64) (events : List MatchEvent) : Prop where
  replaced : ∀ pre found mid next post,
    events = pre ++ .stored found :: (mid ++ .stored next :: post) → NoStore mid →
      ownMatches nftId (registeredIn mid) = ownMatches nftId found
  once : ∀ pre found mid post, events = pre ++ .stored found :: (mid ++ post) → NoStore mid →
    registeredIn mid = found ∨ registeredIn mid = []

/-- Between two MATCH handlers a SWAP handler runs, unless the first one finds no own
match. -/
def SwapBetween (nftId : UInt64) (events : List MatchEvent) : Prop :=
  ∀ pre found mid next post,
    events = pre ++ .stored found :: (mid ++ .stored next :: post) → NoStore mid →
      ownMatches nftId found = [] ∨ ∃ taken, .swapped taken ∈ mid

/-- Events that take what is stored register every own match exactly if a SWAP is between any
two MATCH handlers of which the first finds one. -/
theorem eachRegistered_iff {nftId : UInt64} {ms : List Match} {events : List MatchEvent}
    (hcoh : Coherent ms events) : EachRegistered nftId events ↔ SwapBetween nftId events := by
  constructor
  · intro h pre found mid next post hsplit hmid
    rw [hsplit] at hcoh
    have hreg := h.replaced pre found mid next post hsplit hmid
    by_cases hex : ∃ taken, .swapped taken ∈ mid
    · exact .inr hex
    · rw [(registeredIn_of_coherent (coherent_stored hcoh) hmid).2 hex] at hreg
      exact .inl hreg.symm
  · intro h
    refine ⟨fun pre found mid next post hsplit hmid => ?_,
      fun pre found mid post hsplit hmid => ?_⟩
    · have hbetween := h pre found mid next post hsplit hmid
      rw [hsplit] at hcoh
      obtain ⟨hsome, hnone⟩ := registeredIn_of_coherent (coherent_stored hcoh) hmid
      by_cases hex : ∃ taken, .swapped taken ∈ mid
      · rw [hsome hex]
      · rw [hnone hex, hbetween.resolve_right hex]
        rfl
    · rw [hsplit] at hcoh
      obtain ⟨hsome, hnone⟩ := registeredIn_of_coherent (coherent_stored hcoh) hmid
      by_cases hex : ∃ taken, .swapped taken ∈ mid
      · exact .inl (hsome hex)
      · exact .inr (hnone hex)

section

variable [Externals]

/-- **No match is dropped.**  A run with a submitter takes the settlement manager on by its
calls, and the events show every match that these calls register.  Each own match is registered
exactly once before it is replaced, if and only if a SWAP handler runs between any two MATCH
handlers of which the first finds an own match. -/
theorem each_own_match_registered_iff {cfg : RunConfig} (hsub : cfg.hasSubmitter = true)
    {l l' : RunLoop} {is : List Input} (hrun : (system cfg).run l is = some l') :
    SettlementManager.system.run l.settlement (settlementCallsIn cfg l is)
        = some l'.settlement ∧
      registeredIn ((system cfg).trace (matchEvent cfg) l is)
        = SettlementManager.registeredBy (settlementCallsIn cfg l is) ∧
      (EachRegistered cfg.nftId ((system cfg).trace (matchEvent cfg) l is) ↔
        SwapBetween cfg.nftId ((system cfg).trace (matchEvent cfg) l is)) :=
  ⟨settlement_of_run hrun, registeredIn_trace hrun, eachRegistered_iff (coherent_of_run hsub hrun)⟩

end

/-! ## A skipped SWAP -/

section

attribute [local instance] sampleExternals

/-- The buy of NFT 2 arrives. -/
def buyArrives : Input := .gossip (.reveal 7 0 sampleBuy buySignature)

/-- The node sells in batch 7, receives the buy and runs MATCH; the first arrival of the buy
makes it ask for the key of NFT 2. -/
def matchInputs : List Input :=
  [buyArrives, commitBlock, buyArrives, .block (silentBlock 117)]

/-- Then the loop observes SWAP of batch 7 and MATCH of batch 8. -/
def swappedInputs : List Input :=
  matchInputs ++ [.block (silentBlock 118), .block (silentBlock 127)]

/-- Or it observes MATCH of batch 8 next. -/
def skippedInputs : List Input := matchInputs ++ [.block (silentBlock 127)]

/-- The events of a run of the sample node. -/
def sampleEvents (is : List Input) : List MatchEvent :=
  (system sampleConfig).trace (matchEvent sampleConfig) sampleLoop is

/-- The own sell and the buy of NFT 2, as MATCH of batch 7 finds them. -/
def foundMatches : List Match :=
  match sampleEvents matchInputs with
  | [.stored found] => found
  | _ => []

/-- SWAP of batch 7 runs before MATCH of batch 8: the settlement manager is called with the
match, once. -/
theorem swapped_match_registered :
    EachRegistered 1 (sampleEvents swappedInputs) ∧
      SettlementManager.registeredBy (settlementCallsIn sampleConfig sampleLoop swappedInputs)
        = foundMatches := by
  obtain ⟨hevents, hruns⟩ : sampleEvents swappedInputs
        = [.stored foundMatches, .swapped foundMatches, .stored []] ∧
      ((system sampleConfig).run sampleLoop swappedInputs).isSome := by
    decide +kernel
  obtain ⟨l, hrun⟩ := Option.isSome_iff_exists.mp hruns
  obtain ⟨-, hcalls, hiff⟩ := each_own_match_registered_iff rfl hrun
  have hregistered : registeredIn (sampleEvents swappedInputs) = foundMatches := by
    simp [hevents, registeredIn]
  refine ⟨hiff.mpr ?_, hcalls.symm.trans hregistered⟩
  intro pre found mid next post hsplit _
  have hsplit := hevents.symm.trans hsplit
  rcases pre with _ | ⟨a, _ | ⟨b, pre⟩⟩
  · obtain ⟨-, hmid⟩ := List.cons.inj hsplit
    cases mid with
    | nil => cases (List.cons.inj hmid).1
    | cons e mid =>
        obtain ⟨rfl, -⟩ := List.cons.inj hmid
        exact .inr ⟨foundMatches, List.mem_cons_self⟩
  · cases (List.cons.inj (List.cons.inj hsplit).2).1
  · -- one event is left, but two are stored
    have hlen := congrArg List.length hsplit
    simp only [List.length_cons, List.length_append, List.length_nil] at hlen
    omega

/-- In the samples the clock does not change. -/
theorem constantClock_of_silent {epoch : BatchEpoch} {params : BatchParams}
    {is : List Input} (his : ∀ i ∈ is, ∃ block, i = .block (silentBlock block)) :
    ∀ i ∈ matchInputs ++ is, ConstantClock epoch params i := by
  intro i hi
  rcases List.mem_append.mp hi with hi | hi
  · simp only [matchInputs, List.mem_cons, List.not_mem_nil, or_false] at hi
    rcases hi with rfl | rfl | rfl | rfl
    · trivial
    · exact constantClock_of_none rfl rfl rfl
    · trivial
    · exact constantClock_of_none rfl rfl rfl
  · obtain ⟨block, rfl⟩ := his i hi
    exact constantClock_of_none rfl rfl rfl

/-- The loop observes block 127, in MATCH of batch 8, right after block 117, in MATCH of
batch 7: the match is never registered. -/
theorem skipped_swap_drops_match :
    ¬ ∀ (cfg : RunConfig) (epoch : BatchEpoch) (params : BatchParams)
      (numPools height : UInt64) (tracker : EscrowTracker) (gasBalance : Option UInt64)
      (is : List Input) (l : RunLoop), cfg.hasSubmitter = true →
      (heights is).Pairwise (· < ·) → (∀ i ∈ is, ConstantClock epoch params i) →
      (system cfg).run (start cfg epoch params numPools height tracker gasBalance) is = some l →
      EachRegistered cfg.nftId ((system cfg).trace (matchEvent cfg)
        (start cfg epoch params numPools height tracker gasBalance) is) := by
  intro h
  obtain ⟨hevents, hruns, hown⟩ : sampleEvents skippedInputs
        = [.stored foundMatches, .stored []] ∧
      ((system sampleConfig).run sampleLoop skippedInputs).isSome ∧
      ownMatches 1 foundMatches ≠ [] := by
    decide +kernel
  obtain ⟨l, hrun⟩ := Option.isSome_iff_exists.mp hruns
  have hreg := h sampleConfig ⟨100, 6⟩ ⟨10, 4, 3, 1, 2, 3⟩ 1 105 sampleTracker
    (some 10000000000) skippedInputs l rfl (by decide)
    (constantClock_of_silent fun i hi => ⟨127, List.mem_singleton.mp hi⟩) hrun
  have hnone := hreg.replaced [] foundMatches [] [] [] hevents fun _ => List.not_mem_nil
  exact hown hnone.symm

end

end RunLoop
