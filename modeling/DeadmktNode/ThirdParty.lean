/-
# Third-party matches

The match list of a batch covers the whole pool, and SWAP registers every match of it.
The manager takes a match in which its node has no part for a sell of its own: it reserves
the base amount, and credits the quote amount when the settlement event arrives.  So a
third-party match leaves the escrow tracker alone exactly when its registration is refused
(`third_party_neutral_iff`).
-/
import DeadmktNode.SwapHandler

/-! ## Trackers with the same balances -/

namespace EscrowTracker

/-- The two trackers read the same on every token. -/
def SameBalances (t t' : EscrowTracker) : Prop := ∀ token, t.balance token = t'.balance token

/-- The confirmed, outgoing and incoming amounts of the two trackers are the same. -/
def SameValues (t t' : EscrowTracker) : Prop :=
  ∀ token, (t.balance token).confirmed = (t'.balance token).confirmed ∧
    (∀ h, (t.balance token).pendingOut.lookup h = (t'.balance token).pendingOut.lookup h) ∧
    ∀ h, (t.balance token).pendingIn.lookup h = (t'.balance token).pendingIn.lookup h

theorem SameBalances.sameValues {t t' : EscrowTracker} (h : t.SameBalances t') :
    t.SameValues t' := by
  intro token
  rw [h token]
  exact ⟨rfl, fun _ => rfl, fun _ => rfl⟩

/-- The same answer and the same balances. -/
def SameOutcome (r r' : Except EscrowError Unit × EscrowTracker) : Prop :=
  r.1 = r'.1 ∧ r.2.SameBalances r'.2

section

variable {t t' : EscrowTracker} (h : t.SameBalances t')

include h

/-- On the same balances, an operation has the same answer and leaves the same balances. -/
theorem SameBalances.reserveOutflow (token matchHash : String) (amount : UInt64) :
    SameOutcome (t.reserveOutflow token matchHash amount)
      (t'.reserveOutflow token matchHash amount) := by
  refine ⟨?_, fun j => ?_⟩
  · rw [reserveOutflow_fst, reserveOutflow_fst, h token]
  · rw [balance_reserveOutflow, balance_reserveOutflow, h token, h j]

theorem SameBalances.trackInflow (token matchHash : String) (amount : UInt64) :
    SameOutcome (t.trackInflow token matchHash amount)
      (t'.trackInflow token matchHash amount) := by
  refine ⟨?_, fun j => ?_⟩
  · rw [trackInflow_fst, trackInflow_fst, h token]
  · rw [balance_trackInflow, balance_trackInflow, h token, h j]

/-- A flow is reserved and tracked alike. -/
theorem SameBalances.applyFlow (matchHash : String) (flow : EscrowFlow) :
    SameOutcome (t.applyFlow matchHash flow) (t'.applyFlow matchHash flow) := by
  have hres := h.reserveOutflow flow.outToken matchHash flow.outAmount
  unfold EscrowTracker.applyFlow
  generalize t.reserveOutflow flow.outToken matchHash flow.outAmount = r at hres
  generalize t'.reserveOutflow flow.outToken matchHash flow.outAmount = r' at hres
  obtain ⟨e, t₁⟩ := r
  obtain ⟨e', t₁'⟩ := r'
  obtain ⟨rfl, hbal⟩ := hres
  cases e with
  | error e => exact ⟨rfl, hbal⟩
  | ok => exact SameBalances.trackInflow hbal _ _ _

/-- Confirming and releasing are alike on every balance. -/
theorem SameBalances.confirmSettlement (matchHash : String) :
    (t.confirmSettlement matchHash).2.SameBalances (t'.confirmSettlement matchHash).2 := by
  intro j
  rw [balance_confirmSettlement, balance_confirmSettlement, h j]

theorem SameBalances.releasePending (matchHash : String) :
    (t.releasePending matchHash).2.SameBalances (t'.releasePending matchHash).2 := by
  intro j
  rw [balance_releasePending, balance_releasePending, h j]

end

end EscrowTracker

/-! ## Managers that agree -/

namespace SettlementManager

/-- Two managers with the same matches in flight, whose trackers read the same. -/
structure Agrees (s s' : SettlementManager) : Prop where
  pending : s.pending = s'.pending
  ownNftId : s.ownNftId = s'.ownNftId
  balances : s.tracker.SameBalances s'.tracker

theorem Agrees.refl (s : SettlementManager) : s.Agrees s := ⟨rfl, rfl, fun _ => rfl⟩

section

variable {s s' : SettlementManager} (h : s.Agrees s')

include h

/-- A release keeps two managers in agreement, and so do the other operations. -/
theorem Agrees.releasePendingInternal (matchHash : String) :
    (s.releasePendingInternal matchHash).Agrees (s'.releasePendingInternal matchHash) := by
  unfold SettlementManager.releasePendingInternal
  rw [← h.pending]
  cases s.pending.lookup matchHash with
  | none => exact h
  | some ps => exact ⟨rfl, h.ownNftId, h.balances.releasePending matchHash⟩

theorem Agrees.registerSkipped (matchHash : String) (reason : SkipReason) :
    (s.registerSkipped matchHash reason).Agrees (s'.registerSkipped matchHash reason) := by
  obtain ⟨hp, ho, hb⟩ := h.releasePendingInternal matchHash
  exact ⟨hp, ho, hb⟩

/-- The same matches are too old for both. -/
theorem Agrees.expireStale (currentBatchId settlementMaxAge : UInt64) :
    (s.expireStale currentBatchId settlementMaxAge).Agrees
      (s'.expireStale currentBatchId settlementMaxAge) := by
  unfold SettlementManager.expireStale
  rw [show s'.expiredKeys currentBatchId settlementMaxAge
    = s.expiredKeys currentBatchId settlementMaxAge by unfold expiredKeys; rw [h.pending]]
  generalize s.expiredKeys currentBatchId settlementMaxAge = keys
  induction keys generalizing s s' with
  | nil => exact h
  | cons key keys ih => exact ih (h.releasePendingInternal key)

/-- Both find the same match for an event. -/
theorem Agrees.onSettlementConfirmed (order : List String) (event : BatchTradeSettledEvent) :
    (s.onSettlementConfirmed order event).2.Agrees
      (s'.onSettlementConfirmed order event).2 := by
  unfold SettlementManager.onSettlementConfirmed
  rw [show s'.findPendingForEvent order event = s.findPendingForEvent order event by
    unfold findPendingForEvent; rw [h.pending]]
  cases s.findPendingForEvent order event with
  | none => exact h
  | some key =>
      exact ⟨by rw [h.pending], h.ownNftId, h.balances.confirmSettlement key⟩

/-- A failure is counted, or releases the match, in both. -/
theorem Agrees.onSettlementFailed (matchHash : String) (code : AbortCode) :
    (s.onSettlementFailed matchHash code).2.Agrees
      (s'.onSettlementFailed matchHash code).2 := by
  have hcount : (s.countAttempt code).Agrees (s'.countAttempt code) :=
    ⟨h.pending, h.ownNftId, h.balances⟩
  cases code <;>
    first
    | exact hcount
    | exact hcount.releasePendingInternal matchHash

theorem Agrees.markSubmitted (matchHash txHash : String) (blockHeight : UInt64) :
    (s.markSubmitted matchHash txHash blockHeight).Agrees
      (s'.markSubmitted matchHash txHash blockHeight) :=
  ⟨by simp only [SettlementManager.markSubmitted, h.pending], h.ownNftId, h.balances⟩

/-- Reports of the worker are handled alike. -/
theorem Agrees.drainResult (block : UInt64) (result : SettleResult) :
    (s.drainResult block result).Agrees (s'.drainResult block result) := by
  cases result with
  | submitted matchHash txHash => exact h.markSubmitted matchHash txHash block
  | alreadySettled matchHash => exact h.onSettlementFailed matchHash .alreadySettled
  | failed matchHash code => exact h.onSettlementFailed matchHash code
  | rpcError => exact h

/-- After an equal registration both submit, or both do not. -/
theorem Agrees.submitMatch [HexCrate] (ctx : SwapContext) (m : Match)
    (r : Except SettlementError Unit) :
    (SettlementManager.submitMatch ctx m (r, s)).1.Agrees
      (SettlementManager.submitMatch ctx m (r, s')).1 := by
  cases r with
  | error e => exact h
  | ok =>
      simp only [SettlementManager.submitMatch, ← h.ownNftId]
      split_ifs with hgas
      · cases ctx.deadNft m with
        | none => exact h
        | some dead => exact h.registerSkipped _ _
      · exact h

/-- SWAP of the same match by managers that agree: both panic, or both go on and agree. -/
theorem Agrees.swapMatch [HexCrate] (ctx : SwapContext) (m : Match) :
    Option.Rel (fun r r' => r.1.Agrees r'.1) (s.swapMatch ctx m) (s'.swapMatch ctx m) := by
  have hterms : ctx.terms s'.ownNftId m = ctx.terms s.ownNftId m := by rw [h.ownNftId]
  have hflow : s'.flowOf (ctx.terms s.ownNftId m) = s.flowOf (ctx.terms s.ownNftId m) := by
    simp only [flowOf, sideOf, h.ownNftId]
  have hout := h.balances.applyFlow (ctx.terms s.ownNftId m).m.hashHex
    (s.flowOf (ctx.terms s.ownNftId m))
  unfold SettlementManager.swapMatch
  rw [hterms, registerMatch_eq, registerMatch_eq, hflow]
  split_ifs with hdiv
  · exact .none
  · rw [Option.map_some, Option.map_some]
    refine .some ?_
    generalize s.tracker.applyFlow _ _ = r at hout
    generalize s'.tracker.applyFlow _ _ = r' at hout
    obtain ⟨e, t⟩ := r
    obtain ⟨e', t'⟩ := r'
    obtain ⟨rfl, hbal⟩ := hout
    cases e with
    | error e => exact ⟨h.pending, h.ownNftId, hbal⟩
    | ok =>
        refine Agrees.submitMatch ?_ ctx m (.ok ())
        exact ⟨by dsimp only; rw [h.pending], h.ownNftId, hbal⟩

/-- Every step of the run loop keeps managers in agreement. -/
theorem Agrees.step [HexCrate] (i : Input) : Option.Rel Agrees (s.step i) (s'.step i) := by
  cases i with
  | swap ctx m =>
      have hrel := h.swapMatch ctx m
      simp only [SettlementManager.step]
      generalize s.swapMatch ctx m = o at hrel
      generalize s'.swapMatch ctx m = o' at hrel
      cases hrel with
      | some hr => exact .some hr
      | none => exact .none
  | report block result => exact .some (h.drainResult block result)
  | event order event => exact .some (h.onSettlementConfirmed order event)
  | expire newBatchId => exact .some (h.expireStale newBatchId 100)

end

/-! ## A third-party registration -/

/-- Is the reservation of a third-party match refused?  It is one of base, as for a sell. -/
def ReservationRefused [HexCrate] (mgr : SettlementManager) (ctx : SwapContext) (m : Match) :
    Prop :=
  let args := ctx.terms mgr.ownNftId m
  EscrowTracker.priceDivisor args.baseDecimals args.quoteDecimals ≠ 0 ∧
    (mgr.tracker.balance args.baseToken).Refuses m.hashHex m.fillQuantity

instance [HexCrate] (mgr : SettlementManager) (ctx : SwapContext) (m : Match) :
    Decidable (mgr.ReservationRefused ctx m) :=
  inferInstanceAs (Decidable (_ ∧ _))

section

variable {mgr mgr' : SettlementManager} {ctx : SwapContext} {m : Match}

/-- The flow of a match whose buyer is another NFT: base goes out. -/
theorem flowOf_of_ne (ctx : SwapContext) (h : m.buyer.order.nftId ≠ mgr.ownNftId) :
    (mgr.flowOf (ctx.terms mgr.ownNftId m)).outToken = (ctx.terms mgr.ownNftId m).baseToken ∧
      (mgr.flowOf (ctx.terms mgr.ownNftId m)).outAmount = m.fillQuantity := by
  have hside : mgr.sideOf (ctx.terms mgr.ownNftId m).m = .sell := if_neg h
  unfold flowOf
  rw [hside]
  exact ⟨rfl, rfl⟩

/-- A match whose reservation is refused leaves the manager as it was. -/
theorem step_of_refused [HexCrate] (hbuyer : m.buyer.order.nftId ≠ mgr.ownNftId)
    (h : mgr.ReservationRefused ctx m) (hagree : mgr.Agrees mgr') :
    ∃ mgr₁, mgr.step (.swap ctx m) = some mgr₁ ∧ mgr₁.Agrees mgr' := by
  obtain ⟨hdiv, href⟩ := h
  obtain ⟨htok, hamt⟩ := flowOf_of_ne ctx hbuyer
  rw [← htok, ← hamt] at href
  obtain ⟨⟨e, he⟩, hbal⟩ := EscrowTracker.applyFlow_of_refuses href
  simp only [step, swapMatch]
  rw [registerMatch_eq, if_neg hdiv, Option.map_some, Option.map_some]
  refine ⟨_, rfl, ?_⟩
  rw [show (ctx.terms mgr.ownNftId m).m.hashHex = m.hashHex from rfl]
  generalize mgr.tracker.applyFlow _ _ = r at he hbal
  obtain ⟨_, t⟩ := r
  subst he
  exact ⟨hagree.pending, hagree.ownNftId, fun j => (hbal j).trans (hagree.balances j)⟩

/-- Who does not pay for a match does nothing after its registration. -/
theorem submitMatch_of_ne [HexCrate] {r : Except SettlementError Unit × SettlementManager}
    (h : m.gasPayerNftId ≠ r.2.ownNftId) : (submitMatch ctx m r).1 = r.2 := by
  obtain ⟨e | _, mgr⟩ := r
  · rfl
  · simp only [submitMatch]
    rw [if_neg h]

/-- A registration leaves the tracker that the flow left. -/
theorem tracker_registered [HexCrate] (args : MatchTerms)
    (r : Except EscrowError Unit × EscrowTracker) :
    (mgr.registered args r).2.tracker = r.2 := by
  obtain ⟨e | _, t⟩ := r <;> rfl

/-- A reservation that is granted shows in the outflows. -/
theorem step_of_not_refused [HexCrate] (hbuyer : m.buyer.order.nftId ≠ mgr.ownNftId)
    (hgas : m.gasPayerNftId ≠ mgr.ownNftId)
    (h : ¬ mgr.ReservationRefused ctx m) (hagree : mgr.Agrees mgr') :
    ¬ Option.Rel (fun s s' => s.tracker.SameValues s'.tracker)
      (mgr.step (.swap ctx m)) (some mgr') := by
  obtain ⟨htok, hamt⟩ := flowOf_of_ne ctx hbuyer
  simp only [step, swapMatch]
  rw [registerMatch_eq]
  split_ifs with hdiv
  · intro hrel
    cases hrel
  · have hgrant : ¬ (mgr.tracker.balance (mgr.flowOf (ctx.terms mgr.ownNftId m)).outToken).Refuses
        m.hashHex (mgr.flowOf (ctx.terms mgr.ownNftId m)).outAmount := by
      rw [htok, hamt]
      exact fun href => h ⟨hdiv, href⟩
    rw [Option.map_some, Option.map_some, Option.rel_some_some,
      submitMatch_of_ne (by rw [ownNftId_registered]; exact hgas), tracker_registered]
    intro hsame
    have hout := (hsame (ctx.terms mgr.ownNftId m).baseToken).2.1 m.hashHex
    rw [EscrowTracker.pendingOut_applyFlow, if_pos ⟨htok.symm, hgrant⟩,
      show (ctx.terms mgr.ownNftId m).m.hashHex = m.hashHex from rfl, AList.lookup_insert,
      ← hagree.balances] at hout
    -- the entry was not there before, or it would have been refused as a duplicate
    rw [htok] at hgrant
    exact hgrant (.inl (by rw [← hout]; rfl))

end

/-! ## Two runs, with and without -/

/-- Is the input the registration of a match of the engine between two other NFTs? -/
def Input.ThirdParty [Externals] (ownNftId : UInt64) : Input → Prop
  | .swap _ m => (m.buyer.order.nftId ≠ ownNftId ∧ m.seller.order.nftId ≠ ownNftId) ∧
      ∃ input, m ∈ runMatching input
  | _ => False

/-- Only the registrations of SWAP can be third-party inputs. -/
theorem Input.ThirdParty.exists_swap [Externals] {ownNftId : UInt64} {i : Input}
    (h : i.ThirdParty ownNftId) :
    ∃ ctx m, i = .swap ctx m ∧ m.buyer.order.nftId ≠ ownNftId ∧
      m.seller.order.nftId ≠ ownNftId ∧ ∃ input, m ∈ runMatching input := by
  cases i with
  | swap ctx m => exact ⟨ctx, m, rfl, h.1.1, h.1.2, h.2⟩
  | report | event | expire => exact h.elim

/-- Is the registration refused, if the input is one? -/
def RefusedInput [HexCrate] (mgr : SettlementManager) : Input → Prop
  | .swap ctx m => mgr.ReservationRefused ctx m
  | _ => True

/-- The system whose inputs carry a mark. -/
def markedSystem [HexCrate] : System SettlementManager (Input × Bool) := system.comap Prod.fst

theorem markedSystem_step [HexCrate] (mgr : SettlementManager) (i : Input × Bool) :
    markedSystem.step mgr i = mgr.step i.1 := rfl

/-- The marked inputs change nothing: at every point of the run the amounts of the tracker
are those of the run without them. -/
def MarkedNeutral [HexCrate] (mgr : SettlementManager) (is : List (Input × Bool)) : Prop :=
  ∀ js, js <+: is → Option.Rel (fun s s' => s.tracker.SameValues s'.tracker)
    (system.run mgr (js.map Prod.fst))
    (system.run mgr ((js.filter (fun i => !i.2)).map Prod.fst))

/-- **Third-party matches.**  Take any run of SWAP registrations, worker reports,
settlement events and expiries, and mark any of its registrations of third-party matches.
The marked registrations leave the tracker's confirmed, outgoing and incoming amounts as
if they had not been there, at every point of the run, if and only if the tracker refuses
every one of them. -/
theorem third_party_neutral_iff [Externals] (mgr : SettlementManager)
    (is : List (Input × Bool)) (hmark : ∀ i ∈ is, i.2 = true → i.1.ThirdParty mgr.ownNftId) :
    mgr.MarkedNeutral is ↔
      markedSystem.Follows (fun s i => i.2 = true → s.RefusedInput i.1) mgr is := by
  have hiff := markedSystem.rel_run_filter_iff (fun i => !i.2)
    (P := fun i => i.2 = true → i.1.ThirdParty mgr.ownNftId)
    (R := fun s s' => s.Agrees s' ∧ s.ownNftId = mgr.ownNftId)
    (O := fun s s' => s.tracker.SameValues s'.tracker)
    (C := fun s i => s.RefusedInput i.1)
    (fun s s' h => h.1.balances.sameValues) ?_ ?_ ?_ ⟨Agrees.refl mgr, rfl⟩ hmark
  · simp only [Bool.not_eq_false'] at hiff
    rw [← hiff]
    unfold MarkedNeutral markedSystem
    simp only [System.run_comap]
  · rintro s s' i - - ⟨hagree, hown⟩
    rw [markedSystem_step, markedSystem_step]
    obtain ⟨s₁, s₁', h₁, h₁', hR⟩ | ⟨h₁, h₁'⟩ := System.rel_cases (hagree.step i.1)
    · rw [h₁, h₁']
      exact .some ⟨hR, (ownNftId_step h₁).trans hown⟩
    · rw [h₁, h₁']
      exact .none
  · intro s s' i hi hb h hC
    rw [markedSystem_step]
    obtain ⟨ctx, m, heq, hbuyer, -, -⟩ := (hi (by simpa using hb)).exists_swap
    rw [heq] at hC ⊢
    rw [← h.2] at hbuyer
    obtain ⟨s₁, hs₁, hR⟩ := step_of_refused hbuyer hC h.1
    exact ⟨s₁, hs₁, hR, (ownNftId_step hs₁).trans h.2⟩
  · intro s s' i hi hb h hC
    rw [markedSystem_step]
    obtain ⟨ctx, m, heq, hbuyer, hseller, input, hm⟩ := (hi (by simpa using hb)).exists_swap
    rw [heq] at hC ⊢
    rw [← h.2] at hbuyer hseller
    refine step_of_not_refused hbuyer ?_ hC h.1
    -- one of the two parties pays the gas
    rcases (parties_of_mem_runMatching hm).2 with hgas | hgas
    · rw [hgas]; exact hbuyer
    · rw [hgas]; exact hseller

section

attribute [local instance] sampleExternals

/-- The manager of NFT 3, which has `amount` of `EMM` in escrow. -/
def bystander (amount : UInt64) : SettlementManager :=
  new (EscrowTracker.new.setConfirmed "EMM" amount) 3

/-- The match registered by NFT 3, marked. -/
def sampleRegistration : Input × Bool := (.swap sampleSwap sampleMatch, true)

theorem sampleRegistration_thirdParty :
    ∀ i ∈ [sampleRegistration], i.2 = true → i.1.ThirdParty 3 := by
  intro i hi _
  obtain rfl := List.mem_singleton.mp hi
  exact ⟨by decide, _, sampleMatch_mem⟩

/-- NFT 3 has no `EMM`: the match of the others is refused and leaves no trace. -/
theorem refused_third_party_neutral : (bystander 0).MarkedNeutral [sampleRegistration] :=
  (third_party_neutral_iff (bystander 0) [sampleRegistration]
    sampleRegistration_thirdParty).mpr (by
      refine ⟨fun _ => ?_, fun _ _ => trivial⟩
      show ReservationRefused (bystander 0) sampleSwap sampleMatch
      decide +kernel)

/-- NFT 3 has 100 `EMM`: it reserves 5 of them for a match of the others. -/
theorem third_party_sell_reserved :
    ¬ ∀ (mgr : SettlementManager) (is : List (Input × Bool)),
      (∀ i ∈ is, i.2 = true → i.1.ThirdParty mgr.ownNftId) → mgr.MarkedNeutral is := by
  intro h
  have hrel := h (bystander 100) [sampleRegistration] sampleRegistration_thirdParty
    [sampleRegistration] List.prefix_rfl
  rw [show [sampleRegistration].filter (fun i => !i.2) = [] from rfl] at hrel
  have hrefused : ¬ ReservationRefused (bystander 100) sampleSwap sampleMatch := by
    decide +kernel
  refine step_of_not_refused (by decide) (by decide +kernel) hrefused
    (Agrees.refl (bystander 100)) ?_
  simpa only [sampleRegistration, List.map_cons, List.map_nil, System.run_cons, system_step,
    System.run_nil, Option.bind_fun_some] using hrel

end

end SettlementManager
