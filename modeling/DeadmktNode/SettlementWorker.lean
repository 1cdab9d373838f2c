/-
# The settlement worker

The run loop hands matches to a worker, which submits them and reports what came of it.  For a
submission that an endpoint accepted a task watches the transaction and reports a second time, if
it failed.  Requests and reports travel through channels; the worker, the tasks and the loop move
in any order.

* Every request is answered once, in its turn, and the loop learns the answers in that order; the
  failures that it counts are never more than its requests (`SettlementWorker.reports_add_up`).
* The loop releases a match because of a report only if the chain has shown that a transaction of
  this match failed (`SettlementWorker.released_by_failed_transaction`).
-/
import DeadmktNode.PendingInStep
import DeadmktNode.TransactionWait

/-- The manager of the run loop, the channels to the worker and back, and the transactions that
are watched, each with the match that it settles.  A full result channel delays its senders in
their order, so it is a queue. -/
structure SettlementWorker where
  manager : SettlementManager
  requests : List SettleRequest
  watched : List (String × String)
  results : List SettleResult
  submitsTotal : UInt64
  abortsTotal : UInt64

namespace SettlementWorker

/-! ## Steps -/

/-- What the loop, the worker or a task does next. -/
inductive Input where
  | swap (ctx : SwapContext) (m : Match)
  /-- the worker takes a request; its submission comes to a transaction hash or an error -/
  | work (answer : Except String String)
  /-- the task at a place is done -/
  | verify (place : ℕ) (polls : List TxPoll)
  | drain (block : UInt64)
  | event (order : List String) (event : BatchTradeSettledEvent)
  | expire (newBatchId : UInt64)

/-- What can be seen of a step. -/
inductive Note where
  | queued (matchHash : String)
  | answered (matchHash : String) (answer : Except String String)
  | verified (matchHash txHash : String) (polls : List TxPoll)
  | drained (result : SettleResult)

/-- How many requests the channel takes. -/
def capacity : ℕ := 64

/-- Three seconds after the submission the transaction is polled for twenty. -/
def verifyTimeout : ℕ := 20000

/-- What the worker reports of a submission. -/
def reportOf (matchHash : String) : Except String String → SettleResult
  | .ok txHash => .submitted matchHash txHash
  | .error error => .rpcError matchHash error

/-- What a task reports of a transaction. -/
def verdictOf (matchHash : String) : Except ChainError TxResult → Option SettleResult
  | .ok r => if r.success then none else some (.failed matchHash r.abortCode)
  | .error _ => none

/-- The loop hands a request over, unless the channel is full. -/
def enqueue (w : SettlementWorker) (request : SettleRequest) : SettlementWorker × Option Note :=
  if w.requests.length < capacity then
    ({ w with requests := w.requests ++ [request] }, some (.queued request.matchHash))
  else (w, none)

/-- The worker has submitted the match of a request. -/
def answer (w : SettlementWorker) (matchHash : String) (answer : Except String String) :
    SettlementWorker :=
  { w with
    watched := w.watched ++ (answer.toOption.map fun txHash => (matchHash, txHash)).toList
    results := w.results ++ [reportOf matchHash answer] }

/-- The loop counts a report and acts on it. -/
def count (w : SettlementWorker) (block : UInt64) (result : SettleResult) : SettlementWorker :=
  { w with
    manager := w.manager.drainResult block result
    submitsTotal :=
      match result with
      | .submitted .. => w.submitsTotal + 1
      | _ => w.submitsTotal
    abortsTotal :=
      match result with
      | .failed .. | .rpcError .. => w.abortsTotal + 1
      | _ => w.abortsTotal }

variable (http : HttpCrates)

/-- A step and what is seen of it; `none` if it cannot be taken, or is a panic. -/
def act [HexCrate] (w : SettlementWorker) : Input → Option (SettlementWorker × Option Note)
  | .swap ctx m => (w.manager.swapMatch ctx m).map fun (manager, request) =>
      match request with
      | none => ({ w with manager := manager }, none)
      | some request => { w with manager := manager }.enqueue request
  | .work answer =>
      match w.requests with
      | [] => none
      | request :: requests =>
          if request.isGasPayer then
            some ({ w with requests := requests }.answer request.matchHash answer,
              some (.answered request.matchHash answer))
          else some ({ w with requests := requests }, none)
  | .verify place polls =>
      w.watched[place]?.bind fun (matchHash, txHash) =>
        (SupraClient.waitForTx http verifyTimeout polls).map fun result =>
          ({ w with
            watched := w.watched.eraseIdx place
            results := w.results ++ (verdictOf matchHash result).toList },
            some (.verified matchHash txHash polls))
  | .drain block =>
      match w.results with
      | [] => none
      | result :: results =>
          some ({ w with results := results }.count block result, some (.drained result))
  | .event order event =>
      some ({ w with manager := (w.manager.onSettlementConfirmed order event).2 }, none)
  | .expire newBatchId => some ({ w with manager := w.manager.expireStale newBatchId 100 }, none)

/-- Worker, loop and chain as one system. -/
def system [HexCrate] : System SettlementWorker Input where
  step w i := (w.act http i).map Prod.fst

/-- What is seen of a run. -/
def notes [HexCrate] (w : SettlementWorker) (is : List Input) : List Note :=
  (system http).trace (fun w i => (w.act http i).bind Prod.snd) w is

/-- At start-up nothing is under way. -/
def start (manager : SettlementManager) : SettlementWorker := ⟨manager, [], [], [], 0, 0⟩

/-! ## What a step can do -/

variable {http : HttpCrates}

/-- A request of SWAP is for its match, which the node pays for. -/
theorem isGasPayer_of_swapMatch [HexCrate] {mgr mgr' : SettlementManager} {ctx : SwapContext}
    {m : Match} {request : SettleRequest} (h : mgr.swapMatch ctx m = some (mgr', some request)) :
    request.isGasPayer = true := by
  obtain ⟨⟨result, mgr₁⟩, -, hsubmit⟩ := Option.map_eq_some_iff.mp h
  cases result with
  | error e =>
      obtain ⟨-, hnone⟩ := Prod.mk.inj hsubmit
      cases hnone
  | ok _ =>
      simp only [SettlementManager.submitMatch] at hsubmit
      split_ifs at hsubmit
      · cases hdead : ctx.deadNft m with
        | some dead =>
            rw [hdead] at hsubmit
            obtain ⟨-, hnone⟩ := Prod.mk.inj hsubmit
            cases hnone
        | none =>
            rw [hdead] at hsubmit
            obtain ⟨-, hsome⟩ := Prod.mk.inj hsubmit
            obtain rfl := Option.some.inj hsome
            rfl
      · obtain ⟨-, hnone⟩ := Prod.mk.inj hsubmit
        cases hnone

/-- What a step can do, and what is seen of it. -/
inductive Acted (http : HttpCrates) (w : SettlementWorker) :
    SettlementWorker → Option Note → Prop where
  /-- the manager may change, and nothing is seen -/
  | silent (manager : SettlementManager) : Acted http w { w with manager := manager } none
  | queued (manager : SettlementManager) (request : SettleRequest)
      (hpayer : request.isGasPayer = true) :
      Acted http w { w with manager := manager, requests := w.requests ++ [request] }
        (some (.queued request.matchHash))
  | passed (request : SettleRequest) (requests : List SettleRequest)
      (hrequests : w.requests = request :: requests) (hpayer : request.isGasPayer = false) :
      Acted http w { w with requests := requests } none
  | answered (request : SettleRequest) (requests : List SettleRequest)
      (hrequests : w.requests = request :: requests) (answer : Except String String) :
      Acted http w ({ w with requests := requests }.answer request.matchHash answer)
        (some (.answered request.matchHash answer))
  | verified (place : ℕ) (matchHash txHash : String) (polls : List TxPoll)
      (result : Except ChainError TxResult) (hplace : w.watched[place]? = some (matchHash, txHash))
      (hwait : SupraClient.waitForTx http verifyTimeout polls = some result) :
      Acted http w
        { w with
          watched := w.watched.eraseIdx place
          results := w.results ++ (verdictOf matchHash result).toList }
        (some (.verified matchHash txHash polls))
  | drained (block : UInt64) (result : SettleResult) (results : List SettleResult)
      (hresults : w.results = result :: results) :
      Acted http w ({ w with results := results }.count block result) (some (.drained result))

/-- What a step can do. -/
theorem acted_of_act [HexCrate] {w w' : SettlementWorker} {i : Input} {note : Option Note}
    (h : w.act http i = some (w', note)) : Acted http w w' note := by
  cases i with
  | swap ctx m =>
      obtain ⟨⟨manager, request⟩, hswap, hresult⟩ := Option.map_eq_some_iff.mp h
      cases request with
      | none =>
          obtain ⟨rfl, rfl⟩ := Prod.mk.inj hresult
          exact .silent manager
      | some request =>
          have hpayer := isGasPayer_of_swapMatch hswap
          simp only [enqueue] at hresult
          split_ifs at hresult
          · obtain ⟨rfl, rfl⟩ := Prod.mk.inj hresult
            exact .queued manager request hpayer
          · obtain ⟨rfl, rfl⟩ := Prod.mk.inj hresult
            exact .silent manager
  | work answer =>
      simp only [act] at h
      cases hrequests : w.requests with
      | nil => rw [hrequests] at h; cases h
      | cons request requests =>
          rw [hrequests] at h
          dsimp only at h
          split_ifs at h with hpayer
          · obtain ⟨rfl, rfl⟩ := Prod.mk.inj (Option.some.inj h)
            exact .answered request requests hrequests answer
          · obtain ⟨rfl, rfl⟩ := Prod.mk.inj (Option.some.inj h)
            exact .passed request requests hrequests (by simpa using hpayer)
  -- the task of the watched transaction that is in this place comes to its end
  | verify place polls =>
      obtain ⟨⟨matchHash, txHash⟩, hplace, hresult⟩ := Option.bind_eq_some_iff.mp h
      obtain ⟨result, hwait, hresult⟩ := Option.map_eq_some_iff.mp hresult
      obtain ⟨rfl, rfl⟩ := Prod.mk.inj hresult
      exact .verified place matchHash txHash polls result hplace hwait
  | drain block =>
      simp only [act] at h
      cases hresults : w.results with
      | nil => rw [hresults] at h; cases h
      | cons result results =>
          rw [hresults] at h
          obtain ⟨rfl, rfl⟩ := Prod.mk.inj (Option.some.inj h)
          exact .drained block result results hresults
  | event order event =>
      obtain ⟨rfl, rfl⟩ := Prod.mk.inj (Option.some.inj h)
      exact .silent _
  | expire newBatchId =>
      obtain ⟨rfl, rfl⟩ := Prod.mk.inj (Option.some.inj h)
      exact .silent _

/-- **Invariants with what was seen** are those that every step keeps. -/
theorem notes_history [HexCrate] {I : List Note → SettlementWorker → Prop}
    (hstep : ∀ seen w w' note, I seen w → Acted http w w' note → I (seen ++ note.toList) w')
    {w w' : SettlementWorker} {is : List Input} (hw : I [] w)
    (hrun : (system http).run w is = some w') : I (notes http w is) w' := by
  refine (system http).trace_history _ (I := I) ?_ hw hrun
  intro seen w i w' hI hstep'
  obtain ⟨⟨w₁, note⟩, hact, rfl⟩ := Option.map_eq_some_iff.mp hstep'
  rw [hact]
  exact hstep seen w w₁ note hI (acted_of_act hact)

/-! ## Every report has a cause -/

/-- A transaction of the match was submitted, and later seen to have failed with the code. -/
def FailureSeen (http : HttpCrates) (seen : List Note) (matchHash : String) (code : AbortCode) :
    Prop :=
  ∃ before after txHash polls, seen = before ++ .verified matchHash txHash polls :: after ∧
    .answered matchHash (.ok txHash) ∈ before ∧
    SupraClient.ShowFailure http verifyTimeout polls code

/-- What was seen stays seen. -/
theorem FailureSeen.append {seen : List Note} {matchHash : String} {code : AbortCode}
    (h : FailureSeen http seen matchHash code) (later : List Note) :
    FailureSeen http (seen ++ later) matchHash code := by
  obtain ⟨before, after, txHash, polls, rfl, hbefore, hpolls⟩ := h
  exact ⟨before, after ++ later, txHash, polls, by simp, hbefore, hpolls⟩

/-- What is watched was submitted, and what is reported as failed was seen to have failed. -/
structure Caused (http : HttpCrates) (seen : List Note) (w : SettlementWorker) : Prop where
  watched : ∀ matchHash txHash, (matchHash, txHash) ∈ w.watched →
    .answered matchHash (.ok txHash) ∈ seen
  failed : ∀ matchHash code, .failed matchHash code ∈ w.results →
    FailureSeen http seen matchHash code

/-- **Step.**  A step keeps it: reports of failure come from transactions that were watched. -/
theorem Caused.step {seen : List Note} {w w' : SettlementWorker} {note : Option Note}
    (h : Caused http seen w) (hact : Acted http w w' note) :
    Caused http (seen ++ note.toList) w' := by
  have hwatched : ∀ matchHash txHash, (matchHash, txHash) ∈ w.watched →
      .answered matchHash (.ok txHash) ∈ seen ++ note.toList :=
    fun _ _ hmem => List.mem_append_left _ (h.watched _ _ hmem)
  have hfailed : ∀ matchHash code, .failed matchHash code ∈ w.results →
      FailureSeen http (seen ++ note.toList) matchHash code :=
    fun _ _ hmem => (h.failed _ _ hmem).append _
  cases hact with
  | silent manager => exact ⟨hwatched, hfailed⟩
  | queued manager request hpayer => exact ⟨hwatched, hfailed⟩
  | passed request requests hrequests hpayer => exact ⟨hwatched, hfailed⟩
  | answered request requests hrequests answer =>
      refine ⟨fun matchHash txHash hmem => ?_, fun matchHash code hmem => ?_⟩
      · rcases List.mem_append.mp hmem with hmem | hmem
        · exact hwatched _ _ hmem
        -- a transaction is watched once the answer names it
        · cases answer with
          | error e => exact absurd hmem List.not_mem_nil
          | ok tx =>
              obtain ⟨rfl, rfl⟩ := Prod.mk.inj (List.mem_singleton.mp hmem)
              exact List.mem_append_right _ (List.mem_singleton_self _)
      · rcases List.mem_append.mp hmem with hmem | hmem
        · exact hfailed _ _ hmem
        · have heq := List.mem_singleton.mp hmem
          cases answer <;> cases heq
  | verified place matchHash txHash polls result hplace hwait =>
      refine ⟨fun matchHash' txHash' hmem => ?_, fun matchHash' code hmem => ?_⟩
      · exact hwatched _ _ (List.mem_of_mem_eraseIdx hmem)
      · rcases List.mem_append.mp hmem with hmem | hmem
        · exact hfailed _ _ hmem
        · cases result with
          | error e => exact absurd hmem List.not_mem_nil
          | ok r =>
              -- a failure is reported by the task of a watched transaction
              have hverdict := Option.mem_toList.mp hmem
              unfold verdictOf at hverdict
              dsimp only at hverdict
              split_ifs at hverdict with hsuccess
              obtain ⟨rfl, rfl⟩ := SettleResult.failed.inj (Option.some.inj hverdict)
              exact ⟨seen, [], txHash, polls, rfl,
                h.watched _ _ (List.mem_of_getElem? hplace),
                SupraClient.showFailure_of_waitForTx hwait (by simpa using hsuccess)⟩
  | drained block result results hresults =>
      refine ⟨hwatched, fun matchHash code hmem => hfailed _ _ ?_⟩
      rw [hresults]
      exact List.mem_cons_of_mem _ hmem

/-- A report that releases a match is a failure, of a kind that will not go away. -/
theorem failed_of_released {mgr : SettlementManager} {block : UInt64} {result : SettleResult}
    {k : String} (hpending : (mgr.pending.lookup k).isSome = true)
    (hgone : (mgr.drainResult block result).pending.lookup k = none) :
    ∃ code, result = .failed k code ∧ code ≠ .alreadySettled ∧ code ≠ .insufficientBalance := by
  have hstays : mgr.pending.lookup k ≠ none := by
    intro hnone
    rw [hnone] at hpending
    cases hpending
  -- of the reports only that of a failure drops a match
  cases result with
  | submitted matchHash txHash =>
      exfalso
      change (mgr.pending.modify matchHash _).lookup k = none at hgone
      by_cases hk : k = matchHash
      · subst hk
        rw [AList.lookup_modify, Option.map_eq_none_iff] at hgone
        exact hstays hgone
      · rw [AList.lookup_modify_ne _ _ hk] at hgone
        exact hstays hgone
  | alreadySettled matchHash => exact absurd hgone hstays
  | rpcError matchHash error => exact absurd hgone hstays
  | failed matchHash code =>
      -- the two codes that keep the match pending are left out
      have hreleased : code ≠ .alreadySettled → code ≠ .insufficientBalance → k = matchHash := by
        intro hsettled hbalance
        by_contra hk
        have hlookup : (mgr.drainResult block (.failed matchHash code)).pending.lookup k
            = ((mgr.countAttempt code).releasePendingInternal matchHash).pending.lookup k := by
          cases code <;> first | rfl | exact absurd rfl hsettled | exact absurd rfl hbalance
        rw [hlookup, SettlementManager.lookup_releasePendingInternal, if_neg hk] at hgone
        exact hstays hgone
      have hsettled : code ≠ .alreadySettled := by
        rintro rfl
        exact hstays hgone
      have hbalance : code ≠ .insufficientBalance := by
        rintro rfl
        exact hstays hgone
      obtain rfl := hreleased hsettled hbalance
      exact ⟨code, rfl, hsettled, hbalance⟩

/-- **Releases have a cause.**  Whatever the order of the steps and the answers of the endpoints,
when the loop drops a pending match because of a report, then a transaction of this match was
submitted, the chain has shown since that it failed, and the code of the abort is neither
`E_ALREADY_SETTLED` nor `E_INSUFFICIENT_BALANCE`. -/
theorem released_by_failed_transaction [HexCrate] {manager : SettlementManager} {is : List Input}
    {w w' : SettlementWorker} {block : UInt64} {k : String}
    (hrun : (system http).run (start manager) is = some w)
    (hdrain : (system http).step w (.drain block) = some w')
    (hpending : (w.manager.pending.lookup k).isSome = true)
    (hgone : w'.manager.pending.lookup k = none) :
    ∃ code, w.results.head? = some (.failed k code) ∧ code ≠ .alreadySettled ∧
      code ≠ .insufficientBalance ∧ FailureSeen http (notes http (start manager) is) k code := by
  have hcaused : Caused http (notes http (start manager) is) w := by
    refine notes_history (fun seen w w' note hI hact => hI.step hact) ?_ hrun
    exact ⟨fun _ _ hmem => absurd hmem List.not_mem_nil,
      fun _ _ hmem => absurd hmem List.not_mem_nil⟩
  obtain ⟨⟨w₁, note⟩, hact, rfl⟩ := Option.map_eq_some_iff.mp hdrain
  simp only [act] at hact
  cases hresults : w.results with
  | nil => rw [hresults] at hact; cases hact
  | cons result results =>
      rw [hresults] at hact
      obtain ⟨rfl, rfl⟩ := Prod.mk.inj (Option.some.inj hact)
      obtain ⟨code, rfl, hsettled, hbalance⟩ := failed_of_released hpending hgone
      refine ⟨code, rfl, hsettled, hbalance, hcaused.failed k code ?_⟩
      rw [hresults]
      exact List.mem_cons_self ..

/-! ## The reports add up -/

section

/-- The match of a request. -/
def queuedHash : Note → Option String
  | .queued matchHash => some matchHash
  | _ => none

/-- The answer to a submission. -/
def answerSeen : Note → Option (String × Except String String)
  | .answered matchHash answer => some (matchHash, answer)
  | _ => none

/-- The report that the loop took. -/
def drainedResult : Note → Option SettleResult
  | .drained result => some result
  | _ => none

/-- The matches of the requests, in order. -/
def queued (seen : List Note) : List String := seen.filterMap queuedHash

/-- The answers to the submissions, in order. -/
def answers (seen : List Note) : List (String × Except String String) := seen.filterMap answerSeen

/-- The reports that the loop took, in order. -/
def drained (seen : List Note) : List SettleResult := seen.filterMap drainedResult

/-- A report about a transaction that failed. -/
def isFailure : SettleResult → Bool
  | .failed .. => true
  | _ => false

/-- A report that there was no answer. -/
def isRpcError : SettleResult → Bool
  | .rpcError .. => true
  | _ => false

/-- A report of a transaction that was submitted. -/
def isSubmitted : SettleResult → Bool
  | .submitted .. => true
  | _ => false

/-- A report that the loop counts as an abort. -/
def isAbort (result : SettleResult) : Bool := isFailure result || isRpcError result

/-- A report about a submission, not about its transaction. -/
def isAnswer (result : SettleResult) : Bool := !isFailure result

/-- An answer with the hash of a transaction. -/
def isAccepted (answer : String × Except String String) : Bool := answer.2.isOk

/-- An answer is reported, -/
theorem answer_results (w : SettlementWorker) (matchHash : String)
    (a : Except String String) :
    (w.answer matchHash a).results = w.results ++ [reportOf matchHash a] := rfl

/-- and the transaction is watched if there is one. -/
theorem answer_watched (w : SettlementWorker) (matchHash : String) (a : Except String String) :
    (w.answer matchHash a).watched
      = w.watched ++ (a.toOption.map fun txHash => (matchHash, txHash)).toList := rfl

/-- A task reports at most a failure. -/
theorem filter_verdict (matchHash : String) (result : Except ChainError TxResult) :
    (verdictOf matchHash result).toList.filter isAnswer = [] := by
  unfold verdictOf
  cases result with
  | error e => rfl
  | ok r =>
      dsimp only
      split_ifs
      · rfl
      · rfl

/-- A task reports one failure at most. -/
theorem countP_verdict_le (matchHash : String) (result : Except ChainError TxResult) :
    (verdictOf matchHash result).toList.countP isFailure ≤ 1 := by
  refine le_trans List.countP_le_length ?_
  cases verdictOf matchHash result with
  | none => exact Nat.zero_le _
  | some r => exact le_refl _

/-- What the requests, the answers, the reports and the counters have to do with each other. -/
structure AddsUp (seen : List Note) (w : SettlementWorker) : Prop where
  payer : ∀ request ∈ w.requests, request.isGasPayer = true
  requests : queued seen = (answers seen).map Prod.fst ++ w.requests.map SettleRequest.matchHash
  reports : (answers seen).map (fun a => reportOf a.1 a.2)
    = (drained seen ++ w.results).filter isAnswer
  failures : (drained seen ++ w.results).countP isFailure + w.watched.length
    ≤ (answers seen).countP isAccepted
  submits : w.submitsTotal = UInt64.ofNat ((drained seen).countP isSubmitted)
  aborts : w.abortsTotal = UInt64.ofNat ((drained seen).countP isAbort)

/-- **Step.**  Every step keeps the accounts. -/
theorem AddsUp.step {seen : List Note} {w w' : SettlementWorker} {note : Option Note}
    (h : AddsUp seen w) (hact : Acted http w w' note) : AddsUp (seen ++ note.toList) w' := by
  obtain ⟨hpayer, hrequests, hreports, hfailures, hsubmits, haborts⟩ := h
  cases hact with
  | silent manager =>
      rw [Option.toList_none, List.append_nil]
      exact ⟨hpayer, hrequests, hreports, hfailures, hsubmits, haborts⟩
  | queued manager request hgas =>
      have hq : queued (seen ++ [.queued request.matchHash]) = queued seen ++ [request.matchHash] :=
        System.filterMap_snoc_some rfl
      have ha : answers (seen ++ [.queued request.matchHash]) = answers seen :=
        System.filterMap_snoc_none rfl
      have hd : drained (seen ++ [.queued request.matchHash]) = drained seen :=
        System.filterMap_snoc_none rfl
      rw [Option.toList_some]
      constructor
      · intro r hr
        rcases List.mem_append.mp hr with hr | hr
        · exact hpayer r hr
        · rw [List.mem_singleton.mp hr]
          exact hgas
      · rw [hq, ha, hrequests, List.map_append, List.append_assoc]
        rfl
      · rwa [ha, hd]
      · rwa [ha, hd]
      · rwa [hd]
      · rwa [hd]
  | passed request requests htaken hgas =>
      -- every request is one of a gas payer, so none is passed over
      have hno := hpayer request (by rw [htaken]; exact List.mem_cons_self ..)
      rw [hgas] at hno
      cases hno
  | answered request requests htaken answer =>
      have hq : queued (seen ++ [.answered request.matchHash answer]) = queued seen :=
        System.filterMap_snoc_none rfl
      have ha : answers (seen ++ [.answered request.matchHash answer])
          = answers seen ++ [(request.matchHash, answer)] := System.filterMap_snoc_some rfl
      have hd : drained (seen ++ [.answered request.matchHash answer]) = drained seen :=
        System.filterMap_snoc_none rfl
      rw [Option.toList_some]
      constructor
      · intro r hr
        exact hpayer r (by rw [htaken]; exact List.mem_cons_of_mem _ hr)
      · rw [hq, ha, hrequests, htaken, List.map_append, List.map_cons, List.append_assoc]
        rfl
      · rw [ha, hd, List.map_append, hreports, answer_results, ← List.append_assoc,
          List.filter_append (drained seen ++ w.results)]
        cases answer <;> rfl
      -- an answer is no failure, and it is watched exactly if it is accepted
      · have hnone : [reportOf request.matchHash answer].countP isFailure = 0 := by
          cases answer <;> rfl
        have hsame : (answer.toOption.map fun txHash => (request.matchHash, txHash)).toList.length
            = [(request.matchHash, answer)].countP isAccepted := by
          cases answer <;> rfl
        have hreported : (drained seen ++ (w.results ++ [reportOf request.matchHash answer])).countP
            isFailure = (drained seen ++ w.results).countP isFailure := by
          rw [← List.append_assoc, List.countP_append, hnone, Nat.add_zero]
        have haccepted : (answers seen ++ [(request.matchHash, answer)]).countP isAccepted
            = (answers seen).countP isAccepted + [(request.matchHash, answer)].countP isAccepted :=
          List.countP_append
        rw [ha, hd, answer_results, answer_watched, hreported, haccepted, List.length_append, hsame]
        show _ + (w.watched.length + _) ≤ _
        omega
      · rwa [hd]
      · rwa [hd]
  | verified place matchHash txHash polls result hplace hwait =>
      have hq : queued (seen ++ [.verified matchHash txHash polls]) = queued seen :=
        System.filterMap_snoc_none rfl
      have ha : answers (seen ++ [.verified matchHash txHash polls]) = answers seen :=
        System.filterMap_snoc_none rfl
      have hd : drained (seen ++ [.verified matchHash txHash polls]) = drained seen :=
        System.filterMap_snoc_none rfl
      rw [Option.toList_some]
      have hlt : place < w.watched.length := (List.getElem?_eq_some_iff.mp hplace).1
      constructor
      · exact hpayer
      · rwa [hq, ha]
      · rw [ha, hd, hreports, ← List.append_assoc, List.filter_append (drained seen ++ w.results),
          filter_verdict, List.append_nil]
      · rw [ha, hd, ← List.append_assoc, List.countP_append, List.length_eraseIdx_of_lt hlt]
        -- one fewer is watched, for at most one failure more
        have hverdict := countP_verdict_le matchHash result
        omega
      · rwa [hd]
      · rwa [hd]
  | drained block result results htaken =>
      have hq : queued (seen ++ [.drained result]) = queued seen := System.filterMap_snoc_none rfl
      have ha : answers (seen ++ [.drained result]) = answers seen :=
        System.filterMap_snoc_none rfl
      have hd : drained (seen ++ [.drained result]) = drained seen ++ [result] :=
        System.filterMap_snoc_some rfl
      -- the report moves from the channel to what the loop took
      have hsame : drained seen ++ [result] ++ results = drained seen ++ w.results := by
        rw [htaken, List.append_assoc]
        rfl
      rw [Option.toList_some]
      constructor
      · exact hpayer
      · rwa [hq, ha]
      · rw [ha, hd]
        show _ = (drained seen ++ [result] ++ results).filter isAnswer
        rwa [hsame]
      · rw [ha, hd]
        show (drained seen ++ [result] ++ results).countP isFailure + w.watched.length ≤ _
        rwa [hsame]
      · rw [hd, List.countP_append, UInt64.ofNat_add, ← hsubmits]
        cases result <;> simp [count, isSubmitted]
      · rw [hd, List.countP_append, UInt64.ofNat_add, ← haborts]
        cases result <;> simp [count, isAbort, isFailure, isRpcError]

/-- Aborts are failures and missing answers. -/
theorem countP_isAbort (results : List SettleResult) :
    results.countP isAbort = results.countP isFailure + results.countP isRpcError := by
  induction results with
  | nil => rfl
  | cons result results ih =>
      rw [List.countP_cons, List.countP_cons, List.countP_cons, ih]
      cases result <;> simp [isAbort, isFailure, isRpcError] <;> omega

/-- The errors that were reported are those of the answers. -/
theorem AddsUp.countP_isRpcError {seen : List Note} {w : SettlementWorker} (h : AddsUp seen w) :
    (drained seen ++ w.results).countP isRpcError
      = (answers seen).countP fun a => ¬ isAccepted a = true := by
  have hanswers : ∀ result, isRpcError result = true → isAnswer result = true := by
    intro result hresult
    cases result with
    | rpcError matchHash error => rfl
    | _ => cases hresult
  have hfilter : ((drained seen ++ w.results).filter isAnswer).countP isRpcError
      = (drained seen ++ w.results).countP isRpcError := by
    rw [List.countP_filter]
    refine List.countP_congr fun result _ => ?_
    rw [Bool.and_eq_true]
    exact ⟨fun hr => hr.1, fun hr => ⟨hr, hanswers result hr⟩⟩
  rw [← hfilter, ← h.reports, List.countP_map]
  refine List.countP_congr fun a _ => ?_
  obtain ⟨matchHash, answer⟩ := a
  cases answer with
  | error e => exact iff_of_true rfl rfl
  | ok txHash => exact iff_of_false Bool.false_ne_true Bool.false_ne_true

/-- An accepted submission gives one failure at most, and another one gives one error. -/
theorem AddsUp.countP_isAbort_le {seen : List Note} {w : SettlementWorker} (h : AddsUp seen w) :
    (drained seen).countP isAbort ≤ (answers seen).length := by
  have htotal := List.length_eq_countP_add_countP isAccepted (l := answers seen)
  have herrors := h.countP_isRpcError
  have hfailures := h.failures
  rw [List.countP_append] at herrors hfailures
  rw [countP_isAbort]
  omega

end

/-- **The reports add up.**  Whatever the order of the steps: the requests are answered in their
order, each at most once; the loop learns the answers in this order, each once; its counters count
the accepted submissions, and the failures with the errors; and these are never more than the
requests. -/
theorem reports_add_up [HexCrate] {manager : SettlementManager} {is : List Input}
    {w : SettlementWorker} (hrun : (system http).run (start manager) is = some w) :
    let seen := notes http (start manager) is
    (answers seen).map Prod.fst <+: queued seen ∧
      (drained seen).filter isAnswer <+: (answers seen).map (fun a => reportOf a.1 a.2) ∧
      w.submitsTotal = UInt64.ofNat ((drained seen).countP isSubmitted) ∧
      w.abortsTotal = UInt64.ofNat ((drained seen).countP isAbort) ∧
      (drained seen).countP isAbort ≤ (queued seen).length := by
  have h : AddsUp (notes http (start manager) is) w := by
    refine notes_history (fun seen w w' note hI hact => hI.step hact) ?_ hrun
    exact ⟨fun _ hr => absurd hr List.not_mem_nil, rfl, rfl, le_refl _, rfl, rfl⟩
  refine ⟨⟨_, h.requests.symm⟩, ⟨w.results.filter isAnswer, ?_⟩, h.submits, h.aborts, ?_⟩
  · rw [← List.filter_append, h.reports]
  · refine le_trans h.countP_isAbort_le ?_
    rw [h.requests, List.length_append, List.length_map]
    exact Nat.le_add_right _ _

/-! ## A transaction that fails -/

section

attribute [local instance] sampleExternals

/-- NFT 2, which buys and pays for the sample match. -/
def payingManager : SettlementManager := .new (EscrowTracker.new.setConfirmed "KAY" 100) 2

/-- A parser that knows the answer about one transaction. -/
def failingHttp : HttpCrates where
  statusText status := toString status
  parse text :=
    if text = "transaction" then
      .ok (.object [("status", .string "Fail"), ("output", .object [("Move", .object
        [("vm_status", .string "Move abort in 0x1::settlement: E_BUYER_OVERFILL(0x5): ")])])])
    else .error "expected value at line 1 column 1"

/-- The transaction is unknown at first, and then it has failed. -/
def failingPolls : List TxPoll :=
  [⟨0, .response ⟨404, none, .ok ""⟩⟩, ⟨500, .response ⟨200, none, .ok "transaction"⟩⟩]

/-- The match is swapped, submitted and watched, and the loop takes the first report. -/
def failingInputs : List Input :=
  [.swap sampleSwap sampleMatch, .work (.ok "0xaa"), .verify 0 failingPolls, .drain 108]

/-- The second report releases the match: its transaction has failed. -/
theorem overfill_releases :
    ∃ w, (system failingHttp).run (start payingManager) failingInputs = some w ∧
      (w.manager.pending.lookup sampleMatch.hashHex).isSome = true ∧
      ∃ code, w.results.head? = some (.failed sampleMatch.hashHex code) ∧
        FailureSeen failingHttp (notes failingHttp (start payingManager) failingInputs)
          sampleMatch.hashHex code := by
  have hboth : (((system failingHttp).run (start payingManager) failingInputs).bind fun w =>
      ((system failingHttp).step w (.drain 109)).map fun w' =>
        ((w.manager.pending.lookup sampleMatch.hashHex).isSome,
          (w'.manager.pending.lookup sampleMatch.hashHex).isNone)) = some (true, true) := by
    decide +kernel
  obtain ⟨w, hrun, hstep⟩ := Option.bind_eq_some_iff.mp hboth
  obtain ⟨w', hdrain, heq⟩ := Option.map_eq_some_iff.mp hstep
  obtain ⟨hpending, hgone⟩ := Prod.mk.inj heq
  obtain ⟨code, hhead, -, -, hseen⟩ :=
    released_by_failed_transaction hrun hdrain hpending (Option.isNone_iff_eq_none.mp hgone)
  exact ⟨w, hrun, hpending, code, hhead, hseen⟩

/-- With both reports taken there are one submission, one abort and one request. -/
theorem overfill_adds_up :
    ∃ w, (system failingHttp).run (start payingManager) (failingInputs ++ [.drain 109]) = some w ∧
      w.submitsTotal = 1 ∧ w.abortsTotal = 1 ∧
      (answers (notes failingHttp (start payingManager)
        (failingInputs ++ [.drain 109]))).map Prod.fst <+:
          queued (notes failingHttp (start payingManager) (failingInputs ++ [.drain 109])) := by
  have htotals : ((system failingHttp).run (start payingManager)
      (failingInputs ++ [.drain 109])).map (fun w => (w.submitsTotal, w.abortsTotal))
      = some (1, 1) := by
    decide +kernel
  obtain ⟨w, hrun, heq⟩ := Option.map_eq_some_iff.mp htotals
  obtain ⟨hsubmits, haborts⟩ := Prod.mk.inj heq
  exact ⟨w, hrun, hsubmits, haborts, (reports_add_up hrun).1⟩

end

end SettlementWorker
