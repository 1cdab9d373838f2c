/-
# Isolation

A node that finds most of its settlements settled already may be cut off from the others.  The
settlement manager counts the aborts, and those that were settled already, but not the
settlements that are confirmed.  So its verdict is that over all outcomes exactly as long as the
confirmed ones make no difference (`isolation_over_all_outcomes_iff`).
-/
import DeadmktNode.FloatRounding
import DeadmktNode.PendingInStep

namespace SettlementManager

/-! ## The verdict -/

/-- More than half of at least five settlements were settled already.  The ratio is that of two
32-bit numbers in double precision. -/
def isPotentiallyIsolated (mgr : SettlementManager) : Bool :=
  if mgr.totalSettlementCount < 5 then false
  else
    let ratio : ℚ := roundBits 53
      ((mgr.alreadySettledCount.toNat : ℚ) / (mgr.totalSettlementCount.toNat : ℚ))
    1 / 2 < ratio

/-- Count from zero again. -/
def resetIsolationCounters (mgr : SettlementManager) : SettlementManager :=
  { mgr with alreadySettledCount := 0, totalSettlementCount := 0 }

/-- At least five outcomes, and more than half of them settled already. -/
def Isolated (outcomes settled : ℕ) : Prop := 5 ≤ outcomes ∧ outcomes < 2 * settled

instance (outcomes settled : ℕ) : Decidable (Isolated outcomes settled) :=
  inferInstanceAs (Decidable (_ ∧ _))

/-- The rounding of the ratio does not change the verdict. -/
theorem isPotentiallyIsolated_iff (mgr : SettlementManager) :
    mgr.isPotentiallyIsolated = true ↔
      Isolated mgr.totalSettlementCount.toNat mgr.alreadySettledCount.toNat := by
  have hbound := mgr.totalSettlementCount.toNat_lt
  have hfive : mgr.totalSettlementCount < 5 ↔ mgr.totalSettlementCount.toNat < 5 :=
    UInt32.lt_iff_toNat_lt
  unfold isPotentiallyIsolated Isolated
  split_ifs with hfew
  · rw [hfive] at hfew
    exact iff_of_false not_false fun h => by omega
  · rw [hfive] at hfew
    rw [decide_eq_true_eq, half_lt_roundBits_div_iff (by omega) (by omega)]
    exact (and_iff_right (by omega)).symm

/-! ## Outcomes -/

/-- A call of the manager, or a reset of its isolation counters. -/
inductive IsolationInput where
  | call (input : PendingInput)
  | resetIsolationCounters

/-- What a call says about settlements. -/
inductive Outcome where
  | confirmed
  | failed (alreadySettled : Bool)
  | reset
deriving DecidableEq

/-- The calls of the manager and the resets as a system. -/
def isolation [HexCrate] : System SettlementManager IsolationInput where
  step mgr
    | .call input => mgr.pendingStep input
    | .resetIsolationCounters => some mgr.resetIsolationCounters

/-- The outcome that a call records: an event that confirms a pending match, or an abort. -/
def outcome (mgr : SettlementManager) : IsolationInput → Option Outcome
  | .call (.onSettlementConfirmed order event) =>
      if (mgr.onSettlementConfirmed order event).1 then some .confirmed else none
  | .call (.onSettlementFailed _ code) => some (.failed (code = .alreadySettled))
  | .call (.processResult (.alreadySettled _)) => some (.failed true)
  | .call (.processResult (.failed _ code)) => some (.failed (code = .alreadySettled))
  | .call _ => none
  | .resetIsolationCounters => some .reset

/-- The outcomes since the last reset. -/
structure Tally where
  confirmed : ℕ
  failed : ℕ
  alreadySettled : ℕ

/-- Count one more outcome; a reset starts over. -/
def Tally.record (t : Tally) : Outcome → Tally
  | .confirmed => { t with confirmed := t.confirmed + 1 }
  | .failed alreadySettled => { t with
      failed := t.failed + 1
      alreadySettled := t.alreadySettled + alreadySettled.toNat }
  | .reset => ⟨0, 0, 0⟩

/-- The outcomes since the last reset. -/
def tally (outcomes : List Outcome) : Tally := outcomes.foldl Tally.record ⟨0, 0, 0⟩

/-- The verdict is that over all settlements. -/
def MeasuresAll (outcomes : List Outcome) (mgr : SettlementManager) : Prop :=
  mgr.isPotentiallyIsolated = true ↔
    Isolated ((tally outcomes).confirmed + (tally outcomes).failed) (tally outcomes).alreadySettled

/-- After the call the aborts alone, counted in 32 bits, give the verdict that they give together
with the confirmed settlements. -/
def ConfirmedMakeNoDifference (outcomes : List Outcome) (mgr : SettlementManager)
    (input : IsolationInput) : Prop :=
  let t := tally (outcomes ++ (mgr.outcome input).toList)
  Isolated (t.failed % 2 ^ 32) (t.alreadySettled % 2 ^ 32) ↔
    Isolated (t.confirmed + t.failed) t.alreadySettled

instance (outcomes : List Outcome) (mgr : SettlementManager) (input : IsolationInput) :
    Decidable (ConfirmedMakeNoDifference outcomes mgr input) :=
  inferInstanceAs (Decidable (_ ↔ _))

/-! ## The counters -/

/-- The counters hold the aborts of the tally. -/
structure CountsAborts (t : Tally) (mgr : SettlementManager) : Prop where
  total : mgr.totalSettlementCount.toNat = t.failed % 2 ^ 32
  settled : mgr.alreadySettledCount.toNat = t.alreadySettled % 2 ^ 32

/-- What an operation leaves alone. -/
def SameCounters (mgr mgr' : SettlementManager) : Prop :=
  mgr'.totalSettlementCount = mgr.totalSettlementCount ∧
    mgr'.alreadySettledCount = mgr.alreadySettledCount

section

variable {mgr mgr' : SettlementManager} {t : Tally}

/-- Releases are not counted. -/
theorem sameCounters_releasePendingInternal (mgr : SettlementManager) (matchHash : String) :
    SameCounters mgr (mgr.releasePendingInternal matchHash) := by
  unfold releasePendingInternal
  split <;> exact ⟨rfl, rfl⟩

/-- Neither is expiry. -/
theorem sameCounters_expireStale (mgr : SettlementManager) (currentBatchId age : UInt64) :
    SameCounters mgr (mgr.expireStale currentBatchId age) := by
  have hfold : ∀ keys : List String, SameCounters mgr (keys.foldl releasePendingInternal mgr) :=
    fun keys => ⟨foldl_preserves (V := totalSettlementCount)
        (fun s k => (sameCounters_releasePendingInternal s k).1) keys mgr,
      foldl_preserves (V := alreadySettledCount)
        (fun s k => (sameCounters_releasePendingInternal s k).2) keys mgr⟩
  exact hfold _

/-- Neither is a registration. -/
theorem sameCounters_registered [HexCrate] (mgr : SettlementManager) (args : MatchTerms)
    (r : Except EscrowError Unit × EscrowTracker) : SameCounters mgr (mgr.registered args r).2 := by
  obtain ⟨e | _, tracker⟩ := r <;> exact ⟨rfl, rfl⟩

/-- Neither is a confirmed settlement. -/
theorem sameCounters_onSettlementConfirmed (mgr : SettlementManager) (order : List String)
    (event : BatchTradeSettledEvent) :
    SameCounters mgr (mgr.onSettlementConfirmed order event).2 := by
  unfold onSettlementConfirmed
  split <;> exact ⟨rfl, rfl⟩

/-- An abort counts, whatever is done about the match. -/
theorem sameCounters_onSettlementFailed (mgr : SettlementManager) (matchHash : String)
    (code : AbortCode) :
    SameCounters (mgr.countAttempt code) (mgr.onSettlementFailed matchHash code).2 := by
  cases code <;>
    first
    | exact ⟨rfl, rfl⟩
    | exact sameCounters_releasePendingInternal _ _

/-- What leaves the counters alone keeps the invariant. -/
theorem CountsAborts.of_same (h : CountsAborts t mgr) (hsame : SameCounters mgr mgr') :
    CountsAborts t mgr' :=
  ⟨by rw [hsame.1, h.total], by rw [hsame.2, h.settled]⟩

/-- An abort is counted in the tally as in the counters. -/
theorem CountsAborts.failed (h : CountsAborts t mgr) (matchHash : String) (code : AbortCode) :
    CountsAborts (t.record (.failed (code = .alreadySettled)))
      (mgr.onSettlementFailed matchHash code).2 := by
  refine CountsAborts.of_same ?_ (sameCounters_onSettlementFailed mgr matchHash code)
  refine ⟨?_, ?_⟩
  · show (mgr.totalSettlementCount + 1).toNat = (t.failed + 1) % 2 ^ 32
    rw [UInt32.toNat_add, h.total, UInt32.toNat_one]
    omega
  · show (if code = .alreadySettled then mgr.alreadySettledCount + 1
      else mgr.alreadySettledCount).toNat
        = (t.alreadySettled + (decide (code = .alreadySettled)).toNat) % 2 ^ 32
    split_ifs with hcode
    · rw [UInt32.toNat_add, h.settled, UInt32.toNat_one, decide_eq_true hcode, Bool.toNat_true]
      omega
    · rw [h.settled, decide_eq_false hcode, Bool.toNat_false, add_zero]

/-- **Step.**  Every call keeps the counters in step with the aborts. -/
theorem CountsAborts.step [HexCrate] (h : CountsAborts t mgr) {input : IsolationInput}
    (hstep : isolation.step mgr input = some mgr') :
    CountsAborts ((mgr.outcome input).toList.foldl Tally.record t) mgr' := by
  cases input with
  | resetIsolationCounters =>
      obtain rfl := Option.some.inj hstep
      exact ⟨rfl, rfl⟩
  | call input =>
      cases input with
      | registerMatch args =>
          obtain ⟨r, hr, rfl⟩ := Option.map_eq_some_iff.mp hstep
          obtain ⟨answer, -, rfl⟩ := Option.map_eq_some_iff.mp hr
          exact h.of_same (sameCounters_registered mgr args answer)
      | registerSkipped matchHash reason =>
          obtain rfl := Option.some.inj hstep
          exact h.of_same (sameCounters_releasePendingInternal mgr matchHash)
      | processResult r =>
          obtain rfl := Option.some.inj hstep
          cases r with
          | submitted | rpcError => exact h.of_same ⟨rfl, rfl⟩
          | alreadySettled matchHash => exact h.failed matchHash .alreadySettled
          | failed matchHash code => exact h.failed matchHash code
      -- a confirmation is an outcome, but the counters do not move
      | onSettlementConfirmed order event =>
          obtain rfl := Option.some.inj hstep
          have hsame := h.of_same (sameCounters_onSettlementConfirmed mgr order event)
          show CountsAborts ((if _ then some Outcome.confirmed else none).toList.foldl _ t) _
          split_ifs
          · exact ⟨hsame.total, hsame.settled⟩
          · exact hsame
      | onSettlementFailed matchHash code =>
          obtain rfl := Option.some.inj hstep
          exact h.failed matchHash code
      | expireStale currentBatchId age =>
          obtain rfl := Option.some.inj hstep
          exact h.of_same (sameCounters_expireStale mgr currentBatchId age)
      | setConfirmed | earmarkWithdrawal | releaseEarmark =>
          obtain rfl := Option.some.inj hstep
          exact h.of_same ⟨rfl, rfl⟩

/-- If nothing was confirmed and fewer than `2^32` aborts came, the aborts are all there is. -/
theorem confirmedMakeNoDifference_of_none {outcomes : List Outcome} {input : IsolationInput}
    (hnone : (tally (outcomes ++ (mgr.outcome input).toList)).confirmed = 0)
    (hfailed : (tally (outcomes ++ (mgr.outcome input).toList)).failed < 2 ^ 32)
    (hsettled : (tally (outcomes ++ (mgr.outcome input).toList)).alreadySettled < 2 ^ 32) :
    ConfirmedMakeNoDifference outcomes mgr input := by
  unfold ConfirmedMakeNoDifference
  dsimp only
  rw [hnone, Nat.mod_eq_of_lt hfailed, Nat.mod_eq_of_lt hsettled, zero_add]

end

/-- **Isolation.**  In a run of a new manager the verdict is always that over all outcomes since
the last reset if and only if the confirmed settlements never make a difference. -/
theorem isolation_over_all_outcomes_iff [HexCrate] (tracker : EscrowTracker) (own : UInt64)
    {inputs : List IsolationInput} {mgr : SettlementManager}
    (hrun : isolation.run (new tracker own) inputs = some mgr) :
    isolation.Throughout outcome MeasuresAll [] (new tracker own) inputs ↔
      isolation.FollowsSince outcome ConfirmedMakeNoDifference [] (new tracker own) inputs := by
  have hcounts : ∀ outcomes mgr input mgr', CountsAborts (tally outcomes) mgr →
      isolation.step mgr input = some mgr' →
      CountsAborts (tally (outcomes ++ (mgr.outcome input).toList)) mgr' := by
    intro outcomes mgr input mgr' h hstep
    rw [tally, List.foldl_append]
    exact h.step hstep
  refine isolation.throughout_iff_followsSince outcome
    (J := fun outcomes mgr => CountsAborts (tally outcomes) mgr) hcounts ?_ ⟨rfl, rfl⟩ ?_ hrun
  · intro outcomes mgr input mgr' h _ hstep
    have h' := hcounts outcomes mgr input mgr' h hstep
    rw [MeasuresAll, isPotentiallyIsolated_iff, h'.total, h'.settled]
    rfl
  · rw [MeasuresAll, isPotentiallyIsolated_iff]
    exact Iff.rfl

/-! ## One confirmed settlement -/

section

attribute [local instance] sampleExternals

/-- Three aborts of matches that were settled already and two others, without or with the
confirmation of a sixth match. -/
def fiveAborts (before : List PendingInput) : List IsolationInput :=
  (before ++ List.replicate 3 (PendingInput.onSettlementFailed "0x1" .alreadySettled)
    ++ List.replicate 2 (PendingInput.onSettlementFailed "0x1" .batchTooOld)).map .call

/-- Without a confirmation the verdict is right. -/
theorem aborts_measured :
    isolation.Throughout outcome MeasuresAll [] (new .new 2) (fiveAborts []) :=
  (isolation_over_all_outcomes_iff .new 2
    (System.run_eq_some_getD _ (d := new .new 2) (by decide +kernel))).mpr (by decide +kernel)

/-- With one, three of six settlements were settled already, and the node still takes itself for
isolated. -/
theorem confirmation_not_measured :
    ¬ ∀ (tracker : EscrowTracker) (own : UInt64) (inputs : List IsolationInput)
      (mgr : SettlementManager), isolation.run (new tracker own) inputs = some mgr →
      isolation.Throughout outcome MeasuresAll [] (new tracker own) inputs := by
  intro h
  have hrun : isolation.run (new .new 2) (fiveAborts [.setConfirmed "KAY" 100,
      .registerMatch (sampleSwap.terms 2 sampleMatch),
      .onSettlementConfirmed [sampleMatch.hashHex] sampleSettled]) = some _ :=
    System.run_eq_some_getD _ (d := new .new 2) (by decide +kernel)
  have hmeasures := h .new 2 _ _ hrun _ List.prefix_rfl _ hrun
  rw [MeasuresAll, isPotentiallyIsolated_iff] at hmeasures
  exact absurd hmeasures (by decide +kernel)

end

end SettlementManager
