/-
# Operations of the tracker

Two properties of `EscrowTracker` under its public operations.  A match books an outflow on one
token and an inflow on another; it is not all or nothing, since an inflow that is refused leaves
the outflow behind (`applyMatch_all_or_nothing_iff`).  And what is reserved and earmarked stays
covered by the confirmed balance, whatever the order of operations (`tracker_solvent`).
-/
import DeadmktNode.CommitCoverage

namespace EscrowTracker

/-! ## All or nothing -/

/-- The match is booked: one new outflow and one new inflow, and nothing else. -/
structure Booked (t t' : EscrowTracker) (matchHash : String) (flow : EscrowFlow) : Prop where
  newOut : (t.balance flow.outToken).pendingOut.lookup matchHash = none
  newIn : (t.balance flow.inToken).pendingIn.lookup matchHash = none
  confirmed : ∀ token, (t'.balance token).confirmed = (t.balance token).confirmed
  pendingOut : ∀ token, (t'.balance token).pendingOut =
    if token = flow.outToken then (t.balance token).pendingOut.insert matchHash flow.outAmount
    else (t.balance token).pendingOut
  pendingIn : ∀ token, (t'.balance token).pendingIn =
    if token = flow.inToken then (t.balance token).pendingIn.insert matchHash flow.inAmount
    else (t.balance token).pendingIn
  earmarked : ∀ token, (t'.balance token).earmarked = (t.balance token).earmarked

/-- What a match does if it is all or nothing: it is booked, or fails and changes no balance. -/
def AllOrNothing (t : EscrowTracker) (matchHash : String) (flow : EscrowFlow) :
    Except EscrowError Unit × EscrowTracker → Prop
  | (.ok (), t') => t.Booked t' matchHash flow
  | (.error _, t') => ∀ token, t'.balance token = t.balance token

/-- The outflow is granted and the inflow is refused. -/
def HalfGranted (t : EscrowTracker) (matchHash : String) (flow : EscrowFlow) : Prop :=
  ¬ (t.balance flow.outToken).Refuses matchHash flow.outAmount ∧
    ((t.balance flow.inToken).pendingIn.lookup matchHash).isSome = true

section

variable {t : EscrowTracker} {matchHash : String} {flow : EscrowFlow}

/-- If only the inflow is refused, the match fails, its outflow stays, and no inflow is added. -/
theorem HalfGranted.applyFlow (h : t.HalfGranted matchHash flow) :
    (∃ e, (t.applyFlow matchHash flow).1 = .error e) ∧
      ((t.applyFlow matchHash flow).2.balance flow.outToken).pendingOut
        = (t.balance flow.outToken).pendingOut.insert matchHash flow.outAmount ∧
      ∀ token, ((t.applyFlow matchHash flow).2.balance token).pendingIn
        = (t.balance token).pendingIn := by
  obtain ⟨hgrant, hdup⟩ := h
  obtain ⟨t₁, ht₁, heq⟩ := applyFlow_of_not_refuses hgrant
  have hsame := pendingIn_of_addOut ht₁
  have hdup₁ : ((t₁.balance flow.inToken).pendingIn.lookup matchHash).isSome = true := by
    rwa [hsame]
  refine ⟨?_, ?_, fun token => ?_⟩
  · rw [heq, trackInflow_fst, TokenBalance.trackResult, if_pos hdup₁]
    exact ⟨_, rfl⟩
  · rw [pendingOut_applyFlow, if_pos ⟨rfl, hgrant⟩]
  · rw [heq, balance_trackInflow, if_neg fun h => h.2 hdup₁, hsame]

/-- A match that is granted both is booked. -/
theorem booked_applyFlow (hgrant : ¬ (t.balance flow.outToken).Refuses matchHash flow.outAmount)
    (hnew : (t.balance flow.inToken).pendingIn.lookup matchHash = none) :
    (t.applyFlow matchHash flow).1 = .ok () ∧
      t.Booked (t.applyFlow matchHash flow).2 matchHash flow := by
  obtain ⟨t₁, ht₁, heq⟩ := applyFlow_of_not_refuses hgrant
  have hsame := pendingIn_of_addOut ht₁
  have hnew₁ : ((t₁.balance flow.inToken).pendingIn.lookup matchHash).isSome = false := by
    rw [hsame, hnew]
    rfl
  refine ⟨?_, ?_⟩
  · rw [heq, trackInflow_fst, TokenBalance.trackResult, hnew₁, if_neg Bool.false_ne_true]
  · refine ⟨?_, hnew, fun token => (frame_applyFlow t matchHash flow token).1, fun token => ?_,
      fun token => ?_, fun token => (frame_applyFlow t matchHash flow token).2⟩
    · exact Option.not_isSome_iff_eq_none.mp fun hdup => hgrant (.inl hdup)
    · rw [pendingOut_applyFlow]
      exact if_congr (and_iff_left hgrant) rfl rfl
    · rw [heq, balance_trackInflow, hnew₁]
      by_cases htoken : token = flow.inToken
      · rw [if_pos ⟨htoken, Bool.false_ne_true⟩, if_pos htoken, TokenBalance.addIn_pendingIn, hsame,
          htoken]
      · rw [if_neg fun h => htoken h.1, if_neg htoken, hsame]

variable (t matchHash flow)

theorem allOrNothing_applyFlow_iff :
    t.AllOrNothing matchHash flow (t.applyFlow matchHash flow) ↔
      ¬ t.HalfGranted matchHash flow := by
  constructor
  · intro hall hhalf
    obtain ⟨⟨e, he⟩, hout, -⟩ := hhalf.applyFlow
    generalize t.applyFlow matchHash flow = r at hall he hout
    obtain ⟨_, t'⟩ := r
    subst he
    -- the outflow was not there before
    have hnone : (t.balance flow.outToken).pendingOut.lookup matchHash = none :=
      Option.not_isSome_iff_eq_none.mp fun hdup => hhalf.1 (.inl hdup)
    rw [show t'.balance flow.outToken = t.balance flow.outToken from hall _] at hout
    rw [hout, AList.lookup_insert] at hnone
    cases hnone
  · intro hhalf
    by_cases hrefused : (t.balance flow.outToken).Refuses matchHash flow.outAmount
    · obtain ⟨⟨e, he⟩, hsame⟩ := applyFlow_of_refuses hrefused
      generalize t.applyFlow matchHash flow = r at he hsame ⊢
      obtain ⟨_, t'⟩ := r
      subst he
      exact hsame
    · have hnew : (t.balance flow.inToken).pendingIn.lookup matchHash = none :=
        Option.not_isSome_iff_eq_none.mp fun hdup => hhalf ⟨hrefused, hdup⟩
      obtain ⟨hok, hbooked⟩ := booked_applyFlow hrefused hnew
      generalize t.applyFlow matchHash flow = r at hok hbooked ⊢
      obtain ⟨_, t'⟩ := r
      subst hok
      exact hbooked

end

/-- A match is all or nothing unless its outflow is granted and an inflow under its hash is
already pending on the token that it is paid in. -/
theorem applyMatch_all_or_nothing_iff (t : EscrowTracker) (matchHash : String) (mySide : Side)
    (baseToken quoteToken : String) (fillQuantity buyerPrice settlementPrice : UInt64)
    (baseDecimals quoteDecimals : UInt8) :
    let divisor := priceDivisor baseDecimals quoteDecimals
    let flow := matchFlow mySide baseToken quoteToken fillQuantity buyerPrice settlementPrice
      divisor
    (∀ r, t.applyMatch matchHash mySide baseToken quoteToken fillQuantity buyerPrice
        settlementPrice baseDecimals quoteDecimals = some r → t.AllOrNothing matchHash flow r) ↔
      ¬ (divisor ≠ 0 ∧ t.HalfGranted matchHash flow) := by
  intro divisor flow
  unfold applyMatch
  dsimp only
  by_cases hdivisor : divisor = 0
  · rw [if_pos hdivisor]
    exact iff_of_true nofun fun h => h.1 hdivisor
  · rw [if_neg hdivisor, and_iff_right hdivisor, ← allOrNothing_applyFlow_iff]
    exact ⟨fun h => h _ rfl, fun h r hr => Option.some.inj hr ▸ h⟩

/-- A tracker that has booked a sell of EMM for KAY. -/
def soldOnce : EscrowTracker :=
  (((new.setConfirmed "EMM" 100).setConfirmed "TEE" 100).applyMatch "m" .sell "EMM" "KAY" 10
    100000000 100000000 5 5).elim new Prod.snd

/-- A sell of TEE for KAY under the same hash fails and keeps its outflow. -/
theorem failed_match_keeps_outflow :
    ¬ ∀ (t : EscrowTracker) (matchHash : String) (mySide : Side) (baseToken quoteToken : String)
        (fillQuantity buyerPrice settlementPrice : UInt64) (baseDecimals quoteDecimals : UInt8)
        (e : EscrowError) (t' : EscrowTracker),
      t.applyMatch matchHash mySide baseToken quoteToken fillQuantity buyerPrice settlementPrice
        baseDecimals quoteDecimals = some (.error e, t') →
      ∀ token, t'.balance token = t.balance token := by
  intro h
  have hchecked : ∃ t', soldOnce.applyMatch "m" .sell "TEE" "KAY" 10 100000000 100000000 5 5
        = some (.error (.duplicatePending "m"), t') ∧
      (t'.balance "TEE").pendingOut.lookup "m"
        ≠ (soldOnce.balance "TEE").pendingOut.lookup "m" :=
    ⟨_, rfl, by decide +kernel⟩
  obtain ⟨t', hfails, hchanged⟩ := hchecked
  rw [h _ _ _ _ _ _ _ _ _ _ _ _ hfails "TEE"] at hchanged
  exact hchanged rfl

/-! ## Solvency -/

end EscrowTracker

/-- The operations of the tracker after its confirmed balances are set. -/
inductive TrackerOp where
  | reserveOutflow (token matchHash : String) (amount : UInt64)
  | trackInflow (token matchHash : String) (amount : UInt64)
  | confirmSettlement (matchHash : String)
  | releasePending (matchHash : String)
  | earmarkWithdrawal (token : String) (amount : UInt64)
  | releaseEarmark (token : String) (amount : UInt64) (executed : Bool)
  | applyMatch (matchHash : String) (mySide : Side) (baseToken quoteToken : String)
      (fillQuantity buyerPrice settlementPrice : UInt64) (baseDecimals quoteDecimals : UInt8)

namespace EscrowTracker

/-- The tracker after an operation, also one that fails; a match that panics ends the run. -/
def perform (t : EscrowTracker) : TrackerOp → Option EscrowTracker
  | .reserveOutflow token matchHash amount => some (t.reserveOutflow token matchHash amount).2
  | .trackInflow token matchHash amount => some (t.trackInflow token matchHash amount).2
  | .confirmSettlement matchHash => some (t.confirmSettlement matchHash).2
  | .releasePending matchHash => some (t.releasePending matchHash).2
  | .earmarkWithdrawal token amount => some (t.earmarkWithdrawal token amount).2
  | .releaseEarmark token amount executed => some (t.releaseEarmark token amount executed).2
  | .applyMatch matchHash mySide baseToken quoteToken fillQuantity buyerPrice settlementPrice
      baseDecimals quoteDecimals =>
      (t.applyMatch matchHash mySide baseToken quoteToken fillQuantity buyerPrice settlementPrice
        baseDecimals quoteDecimals).map Prod.snd

def operations : System EscrowTracker TrackerOp := ⟨perform⟩

/-- The tracker after its confirmed balances are set. -/
def synced (confirmed : List (String × UInt64)) : EscrowTracker :=
  confirmed.foldl (fun t c => t.setConfirmed c.1 c.2) new

/-- No confirmed balance overflows, and no more is released than is earmarked. -/
def Fits (t : EscrowTracker) : TrackerOp → Prop
  | .confirmSettlement matchHash => ∀ token, (t.balance token).confirmed.toNat
      + (((t.balance token).pendingIn.lookup matchHash).getD 0).toNat < 2 ^ 64
  | .releaseEarmark token amount _ => amount ≤ (t.balance token).earmarked
  | _ => True

/-- What holds of the empty balance holds of all tokens if it holds of those with an entry. -/
theorem forall_balance_iff {P : TokenBalance → Prop} (hempty : P .empty) (t : EscrowTracker) :
    (∀ token, P (t.balance token)) ↔ ∀ bal ∈ t.balances.values, P bal := by
  constructor
  · intro h bal hbal
    obtain ⟨token, htoken⟩ := AList.mem_values.mp hbal
    have hP := h token
    rwa [balance, htoken, Option.getD_some] at hP
  · intro h token
    unfold balance
    cases htoken : t.balances.lookup token with
    | none => exact hempty
    | some bal => exact h bal (AList.mem_values.mpr ⟨token, htoken⟩)

instance (t : EscrowTracker) (op : TrackerOp) : Decidable (t.Fits op) :=
  match op with
  | .confirmSettlement matchHash => decidable_of_iff
      (∀ bal ∈ t.balances.values,
        bal.confirmed.toNat + ((bal.pendingIn.lookup matchHash).getD 0).toNat < 2 ^ 64)
      (forall_balance_iff (P := fun bal =>
        bal.confirmed.toNat + ((bal.pendingIn.lookup matchHash).getD 0).toNat < 2 ^ 64)
        (by exact Nat.two_pow_pos 64) t).symm
  | .releaseEarmark token amount _ =>
      inferInstanceAs (Decidable (amount ≤ (t.balance token).earmarked))
  | .reserveOutflow .. | .trackInflow .. | .releasePending .. | .earmarkWithdrawal ..
  | .applyMatch .. => isTrue trivial

section

variable {t : EscrowTracker}

/-- Setting confirmed balances reserves and earmarks nothing. -/
theorem idle_foldl_setConfirmed (confirmed : List (String × UInt64)) {t : EscrowTracker}
    (h : ∀ token, (t.balance token).pendingOut = ∅ ∧ (t.balance token).earmarked = 0)
    (token : String) :
    let t' := confirmed.foldl (fun t c => t.setConfirmed c.1 c.2) t
    (t'.balance token).pendingOut = ∅ ∧ (t'.balance token).earmarked = 0 := by
  induction confirmed generalizing t with
  | nil => exact h token
  | cons c confirmed ih =>
      refine ih fun token => ?_
      dsimp only [setConfirmed]
      rw [balance_update]
      by_cases htoken : token = c.1
      · rw [if_pos htoken]
        exact h c.1
      · rw [if_neg htoken]
        exact h token

theorem solvent_synced (confirmed : List (String × UInt64)) : (synced confirmed).Solvent := by
  intro token
  obtain ⟨hout, hear⟩ := idle_foldl_setConfirmed confirmed (t := new) (fun _ => ⟨rfl, rfl⟩) token
  unfold synced
  rw [hout, hear]
  exact Nat.zero_le _

/-- A reservation that is granted is covered. -/
theorem Solvent.reserveOutflow (h : t.Solvent) (token matchHash : String) (amount : UInt64) :
    (t.reserveOutflow token matchHash amount).2.Solvent := by
  intro j
  rw [balance_reserveOutflow]
  split_ifs with hgrant
  · obtain ⟨-, hgrant⟩ := hgrant
    obtain ⟨hdup, hlow⟩ := not_or.mp hgrant
    have hadd := h.projected_add token
    rw [projected_eq] at hadd
    have hcover := UInt64.le_iff_toNat_le.mp (UInt64.not_lt.mp hlow)
    rw [TokenBalance.addOut_pendingOut, TokenBalance.addOut_earmarked,
      TokenBalance.addOut_confirmed, exactSum_insert (Option.not_isSome_iff_eq_none.mp hdup)]
    omega
  · exact h j

theorem Solvent.trackInflow (h : t.Solvent) (token matchHash : String) (amount : UInt64) :
    (t.trackInflow token matchHash amount).2.Solvent := by
  intro j
  obtain ⟨hconf, hout, hear⟩ := frame_trackInflow t token matchHash amount j
  rw [hconf, hout, hear]
  exact h j

/-- A match reserves and tracks, whatever the answers. -/
theorem Solvent.applyFlow_always (h : t.Solvent) (matchHash : String) (flow : EscrowFlow) :
    (t.applyFlow matchHash flow).2.Solvent := by
  have hreserved := h.reserveOutflow flow.outToken matchHash flow.outAmount
  unfold EscrowTracker.applyFlow
  generalize t.reserveOutflow flow.outToken matchHash flow.outAmount = r at hreserved
  obtain ⟨answer, t₁⟩ := r
  cases answer with
  | ok => exact hreserved.trackInflow flow.inToken matchHash flow.inAmount
  | error e => exact hreserved

/-- An earmark that is granted is covered. -/
theorem Solvent.earmarkWithdrawal (h : t.Solvent) (token : String) (amount : UInt64) :
    (t.earmarkWithdrawal token amount).2.Solvent := by
  have hcreated : (t.update token id).Solvent := by
    intro j
    rw [balance_update_id]
    exact h j
  unfold EscrowTracker.earmarkWithdrawal
  dsimp only
  split_ifs with hlow
  · exact hcreated
  · intro j
    rw [balance_update]
    split_ifs with hj
    · have hadd := hcreated.projected_add token
      rw [projected_eq] at hadd
      have hcover := UInt64.le_iff_toNat_le.mp (UInt64.not_lt.mp hlow)
      have hlt := ((t.update token id).balance token).confirmed.toNat_lt
      dsimp only
      rw [UInt64.toNat_add]
      omega
    · exact hcreated j

/-- Releasing an earmark, executed or not, uncovers nothing. -/
theorem Solvent.releaseEarmark (h : t.Solvent) {token : String} {amount : UInt64}
    (hfits : amount ≤ (t.balance token).earmarked) (executed : Bool) :
    (t.releaseEarmark token amount executed).2.Solvent := by
  unfold EscrowTracker.releaseEarmark
  split
  · exact h
  · intro j
    rw [balance_update]
    by_cases hj : j = token
    · have hle := h token
      rw [UInt64.le_iff_toNat_le] at hfits
      rw [if_pos hj]
      dsimp only
      rw [UInt64.toNat_saturatingSub]
      cases executed with
      | false =>
          rw [if_neg Bool.false_ne_true]
          omega
      | true =>
          rw [if_pos rfl, UInt64.toNat_saturatingSub]
          omega
    · rw [if_neg hj]
      exact h j

/-- **Step.** -/
theorem Solvent.perform (h : t.Solvent) {op : TrackerOp} (hfits : t.Fits op) {t' : EscrowTracker}
    (hstep : t.perform op = some t') : t'.Solvent := by
  cases op with
  | reserveOutflow token matchHash amount =>
      obtain rfl := Option.some.inj hstep
      exact h.reserveOutflow token matchHash amount
  | trackInflow token matchHash amount =>
      obtain rfl := Option.some.inj hstep
      exact h.trackInflow token matchHash amount
  | confirmSettlement matchHash =>
      obtain rfl := Option.some.inj hstep
      exact (h.confirmSettlement hfits).1
  | releasePending matchHash =>
      obtain rfl := Option.some.inj hstep
      exact h.releasePending.1
  | earmarkWithdrawal token amount =>
      obtain rfl := Option.some.inj hstep
      exact h.earmarkWithdrawal token amount
  | releaseEarmark token amount executed =>
      obtain rfl := Option.some.inj hstep
      exact h.releaseEarmark hfits executed
  | applyMatch matchHash mySide baseToken quoteToken fillQuantity buyerPrice settlementPrice
      baseDecimals quoteDecimals =>
      obtain ⟨r, hr, rfl⟩ := Option.map_eq_some_iff.mp hstep
      unfold applyMatch at hr
      dsimp only at hr
      split_ifs at hr
      obtain rfl := Option.some.inj hr
      exact h.applyFlow_always matchHash _

end

/-- **Runs.**  After any operations in any order, what is reserved and earmarked of a token is
covered by what is confirmed; the sum of the outflows does not wrap, neither subtraction
saturates, and the projected balance is the exact difference. -/
theorem tracker_solvent {confirmed : List (String × UInt64)} {ops : List TrackerOp}
    {t : EscrowTracker} (hrun : operations.run (synced confirmed) ops = some t)
    (hfits : operations.Follows Fits (synced confirmed) ops) (token : String) :
    let bal := t.balance token
    exactSum bal.pendingOut + bal.earmarked.toNat ≤ bal.confirmed.toNat ∧
      (sumAmounts bal.pendingOut).toNat = exactSum bal.pendingOut ∧
      (bal.projected.toNat : ℤ)
        = bal.confirmed.toNat - exactSum bal.pendingOut - bal.earmarked.toNat := by
  intro bal
  have hsolvent : t.Solvent :=
    operations.run_invariant (fun _ _ _ h hC hstep => h.perform hC hstep)
      (solvent_synced confirmed) hfits hrun
  have hle : exactSum bal.pendingOut + bal.earmarked.toNat ≤ bal.confirmed.toNat :=
    hsolvent token
  have hlt := bal.confirmed.toNat_lt
  have hsum : exactSum bal.pendingOut < 2 ^ 64 := by omega
  have hprojected := TokenBalance.toNat_projected hsum
  refine ⟨hle, toNat_sumAmounts hsum, ?_⟩
  rw [hprojected]
  omega

/-- A reservation and its inflow are confirmed while an earmark stands, which is then paid
out. -/
def sampleOperations : List TrackerOp :=
  [.reserveOutflow "KAY" "m" 30, .trackInflow "EMM" "m" 7, .earmarkWithdrawal "KAY" 20,
    .confirmSettlement "m", .applyMatch "n" .sell "EMM" "KAY" 50 0 100000000 5 5,
    .releaseEarmark "KAY" 20 true]

/-- The tracker after them. -/
def sampleOperated : EscrowTracker :=
  (operations.run (synced [("KAY", 100), ("EMM", 50)]) sampleOperations).getD new

theorem sampleOperated_solvent :
    (sampleOperated.balance "EMM").projected.toNat
      = ((sampleOperated.balance "EMM").confirmed.toNat : ℤ)
        - exactSum (sampleOperated.balance "EMM").pendingOut
        - (sampleOperated.balance "EMM").earmarked.toNat := by
  have hruns : (operations.run (synced [("KAY", 100), ("EMM", 50)]) sampleOperations).isSome := by
    decide +kernel
  exact (tracker_solvent (operations.run_eq_some_getD hruns) (by decide +kernel) "EMM").2.2

end EscrowTracker
