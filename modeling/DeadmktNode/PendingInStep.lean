/-
# The pending map and the tracker stay in step

The settlement manager keeps a match in its pending map and in the escrow tracker, as one
outflow and one inflow.  The two structures are changed by six operations: registrations,
skips, reports of the background worker, settlement events, aborts and expiry.  Whatever
comes, and in whatever order, they hold the same matches: the pending map is mirrored by
the outflows and by the inflows of the tracker.
-/
import DeadmktNode.Runs
import DeadmktNode.SwapHandler

/-! ## One match in the tracker -/

namespace EscrowTracker

section

variable {t : EscrowTracker} {matchHash : String} {flow : EscrowFlow}

/-- A match whose outflow and inflow are both known or both unknown either fails and changes
no balance, or was unknown and enters both sides. -/
theorem applyFlow_cases
    (h : ((t.balance flow.outToken).pendingOut.lookup matchHash).isSome
      ↔ ((t.balance flow.inToken).pendingIn.lookup matchHash).isSome) :
    ((∃ e, (t.applyFlow matchHash flow).1 = .error e) ∧
        ∀ j, (t.applyFlow matchHash flow).2.balance j = t.balance j) ∨
      ((t.applyFlow matchHash flow).1 = .ok () ∧ ∀ j,
        ((t.applyFlow matchHash flow).2.balance j).pendingOut
            = (if j = flow.outToken then (t.balance j).pendingOut.insert matchHash flow.outAmount
              else (t.balance j).pendingOut) ∧
          ((t.applyFlow matchHash flow).2.balance j).pendingIn
            = if j = flow.inToken then (t.balance j).pendingIn.insert matchHash flow.inAmount
              else (t.balance j).pendingIn) := by
  by_cases hr : (t.balance flow.outToken).Refuses matchHash flow.outAmount
  · exact .inl (applyFlow_of_refuses hr)
  · right
    obtain ⟨t₁, ht₁, heq⟩ := applyFlow_of_not_refuses hr
    have hin₁ := pendingIn_of_addOut ht₁
    -- the outflow was new, and so was the inflow
    have hnew : ¬ ((t₁.balance flow.inToken).pendingIn.lookup matchHash).isSome := by
      rw [hin₁, ← h]
      exact (not_or.mp hr).1
    constructor
    · rw [heq, trackInflow_fst, TokenBalance.trackResult, if_neg hnew]
    · intro j
      constructor
      · rw [pendingOut_applyFlow]
        by_cases hj : j = flow.outToken
        · rw [if_pos ⟨hj, hr⟩, if_pos hj]
        · rw [if_neg (fun h' => hj h'.1), if_neg hj]
      · rw [heq, balance_trackInflow]
        by_cases hj : j = flow.inToken
        · subst hj
          rw [if_pos ⟨rfl, hnew⟩, if_pos rfl, TokenBalance.addIn_pendingIn, hin₁]
        · rw [if_neg (fun h' => hj h'.1), if_neg hj, hin₁]

end

/-- A match is pending on some token exactly when one of its entries is there. -/
theorem hasPending_iff (t : EscrowTracker) (matchHash : String) :
    t.hasPending matchHash = true ↔ ∃ token, (t.balance token).hasPending matchHash = true := by
  unfold hasPending
  rw [List.any_eq_true]
  constructor
  · rintro ⟨bal, hbal, hp⟩
    obtain ⟨token, htoken⟩ := AList.mem_values.mp hbal
    refine ⟨token, ?_⟩
    rw [balance, htoken]
    exact hp
  · rintro ⟨token, hp⟩
    unfold balance at hp
    cases htoken : t.balances.lookup token with
    | none =>
        rw [htoken] at hp
        cases hp
    | some bal =>
        rw [htoken] at hp
        exact ⟨bal, AList.mem_values.mpr ⟨token, htoken⟩, hp⟩

/-- Confirmed balances and earmarks are not pending entries. -/
structure SameEntries (t t' : EscrowTracker) : Prop where
  out : ∀ token, (t'.balance token).pendingOut = (t.balance token).pendingOut
  in_ : ∀ token, (t'.balance token).pendingIn = (t.balance token).pendingIn

/-- A change of one balance that spares the pending entries. -/
theorem sameEntries_update (t : EscrowTracker) (token : String) {f : TokenBalance → TokenBalance}
    (hout : ∀ bal, (f bal).pendingOut = bal.pendingOut)
    (hin : ∀ bal, (f bal).pendingIn = bal.pendingIn) : t.SameEntries (t.update token f) := by
  constructor
  · intro j
    rw [balance_update]
    split_ifs with hj
    · rw [hout, hj]
    · rfl
  · intro j
    rw [balance_update]
    split_ifs with hj
    · rw [hin, hj]
    · rfl

/-- One such change after another. -/
theorem SameEntries.trans {t t' t'' : EscrowTracker} (h : t.SameEntries t')
    (h' : t'.SameEntries t'') : t.SameEntries t'' :=
  ⟨fun token => (h'.out token).trans (h.out token), fun token => (h'.in_ token).trans (h.in_ token)⟩

/-- A confirmed balance that is read anew. -/
theorem sameEntries_setConfirmed (t : EscrowTracker) (token : String) (amount : UInt64) :
    t.SameEntries (t.setConfirmed token amount) :=
  t.sameEntries_update token (fun _ => rfl) (fun _ => rfl)

/-- An earmark that is set, or refused; either way the token gets a balance. -/
theorem sameEntries_earmarkWithdrawal (t : EscrowTracker) (token : String) (amount : UInt64) :
    t.SameEntries (t.earmarkWithdrawal token amount).2 := by
  have hcreate : t.SameEntries (t.update token id) :=
    t.sameEntries_update token (fun _ => rfl) (fun _ => rfl)
  simp only [earmarkWithdrawal]
  split_ifs
  · exact hcreate
  · exact hcreate.trans (sameEntries_update _ token (fun _ => rfl) (fun _ => rfl))

/-- An earmark that is lifted. -/
theorem sameEntries_releaseEarmark (t : EscrowTracker) (token : String) (amount : UInt64)
    (executed : Bool) : t.SameEntries (t.releaseEarmark token amount executed).2 := by
  unfold releaseEarmark
  cases t.balances.lookup token with
  | none => exact ⟨fun _ => rfl, fun _ => rfl⟩
  | some bal => exact t.sameEntries_update token (fun _ => rfl) (fun _ => rfl)

end EscrowTracker

/-! ## The operations on both structures -/

namespace SettlementManager

/-- The outflows of the tracker, by token. -/
def outflows (mgr : SettlementManager) (token : String) : HashMap String UInt64 :=
  (mgr.tracker.balance token).pendingOut

/-- The inflows of the tracker, by token. -/
def inflows (mgr : SettlementManager) (token : String) : HashMap String UInt64 :=
  (mgr.tracker.balance token).pendingIn

/-- The pending map and the tracker hold the same matches, and a match has one outflow and
one inflow. -/
structure InStep (mgr : SettlementManager) : Prop where
  pending_iff : ∀ matchHash, (mgr.pending.lookup matchHash).isSome
    ↔ mgr.tracker.hasPending matchHash = true
  one_out : ∀ matchHash, (mgr.pending.lookup matchHash).isSome →
    ∃! token, ((mgr.outflows token).lookup matchHash).isSome
  one_in : ∀ matchHash, (mgr.pending.lookup matchHash).isSome →
    ∃! token, ((mgr.inflows token).lookup matchHash).isSome

/-- The invariant: the outflow of a pending match is on the token `outOf` gives it and its
inflow on the token `inOf` gives it; there are no other entries. -/
structure Mirrored (outOf inOf : String → String) (mgr : SettlementManager) : Prop where
  out : AList.Mirrors mgr.pending mgr.outflows outOf
  in_ : AList.Mirrors mgr.pending mgr.inflows inOf

section

variable {outOf inOf : String → String} {mgr : SettlementManager}

/-- The invariant says that the two structures agree. -/
theorem Mirrored.inStep (h : Mirrored outOf inOf mgr) : mgr.InStep where
  pending_iff := by
    intro matchHash
    rw [EscrowTracker.hasPending_iff]
    constructor
    · intro hp
      obtain ⟨token, htoken⟩ := (h.out.isSome_iff matchHash).mp hp
      refine ⟨token, ?_⟩
      rw [TokenBalance.hasPending, Bool.or_eq_true]
      exact .inl htoken
    · rintro ⟨token, htoken⟩
      rw [TokenBalance.hasPending, Bool.or_eq_true] at htoken
      rcases htoken with hout | hin
      · exact (h.out.isSome_iff matchHash).mpr ⟨token, hout⟩
      · exact (h.in_.isSome_iff matchHash).mpr ⟨token, hin⟩
  one_out := fun _ hp => h.out.existsUnique hp
  one_in := fun _ hp => h.in_.existsUnique hp

/-- Only the keys of the pending map and the entries of the tracker count. -/
theorem Mirrored.congr {mgr' : SettlementManager} (h : Mirrored outOf inOf mgr)
    (hpending : ∀ k, (mgr'.pending.lookup k).isSome ↔ (mgr.pending.lookup k).isSome)
    (hout : ∀ token, mgr'.outflows token = mgr.outflows token)
    (hin : ∀ token, mgr'.inflows token = mgr.inflows token) : Mirrored outOf inOf mgr' :=
  ⟨h.out.congr hpending hout, h.in_.congr hpending hin⟩

/-- A match that is confirmed or released leaves both structures. -/
theorem Mirrored.drop {tracker : EscrowTracker} {key : String} (h : Mirrored outOf inOf mgr)
    (hout : ∀ token, (tracker.balance token).pendingOut = (mgr.outflows token).erase key)
    (hin : ∀ token, (tracker.balance token).pendingIn = (mgr.inflows token).erase key) :
    Mirrored outOf inOf { mgr with tracker := tracker, pending := mgr.pending.erase key } where
  out := (h.out.erase key).congr (fun _ => Iff.rfl) hout
  in_ := (h.in_.erase key).congr (fun _ => Iff.rfl) hin

/-- Changes of balances do not touch it. -/
theorem Mirrored.sameEntries {tracker : EscrowTracker} (h : Mirrored outOf inOf mgr)
    (hsame : mgr.tracker.SameEntries tracker) :
    Mirrored outOf inOf { mgr with tracker := tracker } :=
  h.congr (fun _ => Iff.rfl) hsame.out hsame.in_

/-- A release drops the match on both sides. -/
theorem Mirrored.releasePendingInternal (h : Mirrored outOf inOf mgr) (matchHash : String) :
    Mirrored outOf inOf (mgr.releasePendingInternal matchHash) := by
  unfold SettlementManager.releasePendingInternal
  cases mgr.pending.lookup matchHash with
  | none => exact h
  | some ps =>
      refine h.drop (fun token => ?_) (fun token => ?_)
      · rw [EscrowTracker.balance_releasePending, TokenBalance.release_pendingOut]
        rfl
      · rw [EscrowTracker.balance_releasePending, TokenBalance.release_pendingIn]
        rfl

/-- A skipped match is released. -/
theorem Mirrored.registerSkipped (h : Mirrored outOf inOf mgr) (matchHash : String)
    (reason : SkipReason) : Mirrored outOf inOf (mgr.registerSkipped matchHash reason) :=
  (h.releasePendingInternal matchHash).congr (fun _ => Iff.rfl) (fun _ => rfl) (fun _ => rfl)

/-- A confirmation drops the match that the event is about, if there is one. -/
theorem Mirrored.onSettlementConfirmed (h : Mirrored outOf inOf mgr) (order : List String)
    (event : BatchTradeSettledEvent) :
    Mirrored outOf inOf (mgr.onSettlementConfirmed order event).2 := by
  unfold SettlementManager.onSettlementConfirmed
  cases mgr.findPendingForEvent order event with
  | none => exact h
  | some key =>
      refine h.drop (fun token => ?_) (fun token => ?_)
      · rw [EscrowTracker.balance_confirmSettlement, TokenBalance.confirm_pendingOut]
        rfl
      · rw [EscrowTracker.balance_confirmSettlement, TokenBalance.confirm_pendingIn]
        rfl

/-- An abort keeps the match or releases it. -/
theorem Mirrored.onSettlementFailed (h : Mirrored outOf inOf mgr) (matchHash : String)
    (code : AbortCode) : Mirrored outOf inOf (mgr.onSettlementFailed matchHash code).2 := by
  have hcount : Mirrored outOf inOf (mgr.countAttempt code) :=
    h.congr (fun _ => Iff.rfl) (fun _ => rfl) (fun _ => rfl)
  have hrelease := hcount.releasePendingInternal matchHash
  unfold SettlementManager.onSettlementFailed
  cases code with
  | alreadySettled => exact hcount
  | insufficientBalance => exact hcount
  | _ => exact hrelease

/-- A report marks the match, aborts it or changes nothing. -/
theorem Mirrored.processResult (h : Mirrored outOf inOf mgr) (r : SettleResult) :
    Mirrored outOf inOf (mgr.processResult r).2 := by
  cases r with
  | submitted matchHash txHash =>
      refine h.congr (fun k => ?_) (fun _ => rfl) (fun _ => rfl)
      show ((mgr.pending.modify matchHash _).lookup k).isSome ↔ _
      by_cases hk : k = matchHash
      · subst hk
        rw [AList.lookup_modify, Option.isSome_map]
      · rw [AList.lookup_modify_ne _ _ hk]
  | alreadySettled matchHash => exact h.onSettlementFailed matchHash .alreadySettled
  | failed matchHash code => exact h.onSettlementFailed matchHash code
  | rpcError matchHash error => exact h

/-- Releases one after another. -/
theorem Mirrored.foldl_release (keys : List String) (h : Mirrored outOf inOf mgr) :
    Mirrored outOf inOf (keys.foldl SettlementManager.releasePendingInternal mgr) := by
  induction keys generalizing mgr with
  | nil => exact h
  | cons key keys ih => exact ih (h.releasePendingInternal key)

/-- Expiry releases the old matches. -/
theorem Mirrored.expireStale (h : Mirrored outOf inOf mgr) (b age : UInt64) :
    Mirrored outOf inOf (mgr.expireStale b age) :=
  h.foldl_release _

end

/-! ## Registration -/

/-- The same match with the same tokens has its entries on the same tokens, whatever the
decimals are. -/
theorem flowOf_tokens (mgr : SettlementManager) {args args' : MatchTerms} (hm : args'.m = args.m)
    (hbase : args'.baseToken = args.baseToken) (hquote : args'.quoteToken = args.quoteToken) :
    (mgr.flowOf args').outToken = (mgr.flowOf args).outToken ∧
      (mgr.flowOf args').inToken = (mgr.flowOf args).inToken := by
  unfold flowOf EscrowTracker.matchFlow
  rw [hm, hbase, hquote]
  cases mgr.sideOf args.m <;> exact ⟨rfl, rfl⟩

/-- The places of the invariant are those of the matches that are registered. -/
def Places [HexCrate] (outOf inOf : String → String) (own : UInt64) (args : MatchTerms) : Prop :=
  ∀ mgr : SettlementManager, mgr.ownNftId = own →
    (mgr.flowOf args).outToken = outOf args.m.hashHex ∧
      (mgr.flowOf args).inToken = inOf args.m.hashHex

section

variable {outOf inOf : String → String} {mgr mgr' : SettlementManager} {args : MatchTerms}

/-- What a registration does: it fails and leaves the pending map, the outflows and the
inflows as they were, or the match enters all three. -/
theorem Mirrored.registerMatch_cases [HexCrate] (h : Mirrored outOf inOf mgr)
    (hplaces : Places outOf inOf mgr.ownNftId args) {answer : Except SettlementError Unit}
    (hreg : mgr.registerMatch args = some (answer, mgr')) :
    ((∃ e, answer = .error e) ∧ mgr'.pending = mgr.pending ∧
        ∀ token, mgr'.outflows token = mgr.outflows token ∧
          mgr'.inflows token = mgr.inflows token) ∨
      (answer = .ok () ∧ mgr'.pending = mgr.pending.insert args.m.hashHex (entryOf args) ∧
        (∀ token, mgr'.outflows token = if token = outOf args.m.hashHex then
          (mgr.outflows token).insert args.m.hashHex (mgr.flowOf args).outAmount
          else mgr.outflows token) ∧
        ∀ token, mgr'.inflows token = if token = inOf args.m.hashHex then
          (mgr.inflows token).insert args.m.hashHex (mgr.flowOf args).inAmount
          else mgr.inflows token) := by
  obtain ⟨hout, hin⟩ := hplaces mgr rfl
  -- the match has an outflow exactly when it is pending, and so for the inflow
  have hboth : ((mgr.tracker.balance (mgr.flowOf args).outToken).pendingOut.lookup
        args.m.hashHex).isSome
      ↔ ((mgr.tracker.balance (mgr.flowOf args).inToken).pendingIn.lookup
        args.m.hashHex).isSome := by
    rw [hout, hin]
    have ho := h.out args.m.hashHex (outOf args.m.hashHex)
    have hi := h.in_ args.m.hashHex (inOf args.m.hashHex)
    rw [and_iff_left rfl] at ho hi
    exact ho.trans hi.symm
  have hcases := EscrowTracker.applyFlow_cases hboth
  rw [registerMatch_eq] at hreg
  split_ifs at hreg with hdiv
  have hreg := Option.some.inj hreg
  generalize mgr.tracker.applyFlow args.m.hashHex (mgr.flowOf args) = r at hcases hreg
  obtain ⟨granted, tracker⟩ := r
  rcases hcases with ⟨⟨e, he⟩, hsame⟩ | ⟨hok, hadd⟩
  · left
    obtain rfl : granted = .error e := he
    obtain ⟨rfl, rfl⟩ := Prod.mk.inj hreg
    refine ⟨⟨_, rfl⟩, rfl, fun token => ?_⟩
    unfold outflows inflows
    rw [show tracker.balance token = mgr.tracker.balance token from hsame token]
    exact ⟨rfl, rfl⟩
  · right
    obtain rfl : granted = .ok () := hok
    obtain ⟨rfl, rfl⟩ := Prod.mk.inj hreg
    rw [hout, hin] at hadd
    exact ⟨rfl, rfl, fun token => (hadd token).1, fun token => (hadd token).2⟩

/-- A registration keeps the two structures in step. -/
theorem Mirrored.registerMatch [HexCrate] (h : Mirrored outOf inOf mgr)
    (hplaces : Places outOf inOf mgr.ownNftId args) {answer : Except SettlementError Unit}
    (hreg : mgr.registerMatch args = some (answer, mgr')) : Mirrored outOf inOf mgr' := by
  rcases h.registerMatch_cases hplaces hreg with ⟨-, hpending, hsame⟩ | ⟨-, hpending, hout, hin⟩
  · refine h.congr (fun k => ?_) (fun token => (hsame token).1) (fun token => (hsame token).2)
    rw [hpending]
  · constructor
    · rw [hpending]
      exact h.out.insert _ _ hout
    · rw [hpending]
      exact h.in_.insert _ _ hin

end

/-! ## Expiry -/

section

variable (mgr : SettlementManager)

/-- After a release the match is no longer pending, and the others are as before. -/
theorem lookup_releasePendingInternal (key k : String) :
    (mgr.releasePendingInternal key).pending.lookup k
      = if k = key then none else mgr.pending.lookup k := by
  unfold releasePendingInternal
  cases hkey : mgr.pending.lookup key with
  | none =>
      split_ifs with hk
      · rw [hk, hkey]
      · rfl
  | some ps =>
      split_ifs with hk
      · rw [hk, AList.lookup_erase]
      · exact AList.lookup_erase_ne hk

/-- The same for several releases. -/
theorem lookup_foldl_release (keys : List String) (k : String) :
    (keys.foldl releasePendingInternal mgr).pending.lookup k
      = if k ∈ keys then none else mgr.pending.lookup k := by
  induction keys generalizing mgr with
  | nil => rfl
  | cons key keys ih =>
      rw [List.foldl_cons, ih, lookup_releasePendingInternal]
      by_cases hkeys : k ∈ keys
      · rw [if_pos hkeys, if_pos (List.mem_cons_of_mem _ hkeys)]
      · by_cases hk : k = key
        · rw [if_neg hkeys, if_pos hk, if_pos (by rw [hk]; exact List.mem_cons_self)]
        · rw [if_neg hkeys, if_neg hk, if_neg (by simp [hk, hkeys])]

/-- Expired is what is older than the age. -/
theorem mem_expiredKeys {b age : UInt64} {k : String} :
    k ∈ mgr.expiredKeys b age
      ↔ ∃ ps, mgr.pending.lookup k = some ps ∧ b > ps.createdAtBatch + age := by
  unfold expiredKeys
  rw [List.mem_map]
  constructor
  · rintro ⟨⟨j, ps⟩, hmem, rfl⟩
    rw [List.mem_filter, decide_eq_true_eq] at hmem
    exact ⟨ps, AList.mem_lookup_iff.mpr hmem.1, hmem.2⟩
  · rintro ⟨ps, hps, hlt⟩
    refine ⟨⟨k, ps⟩, ?_, rfl⟩
    rw [List.mem_filter, decide_eq_true_eq]
    exact ⟨AList.mem_lookup_iff.mp hps, hlt⟩

/-- No match that is too old is pending after expiry. -/
theorem le_of_lookup_expireStale {b age : UInt64} {k : String} {ps : PendingSettlement}
    (h : (mgr.expireStale b age).pending.lookup k = some ps)
    (hfits : ps.createdAtBatch.toNat + age.toNat < 2 ^ 64) :
    b.toNat ≤ ps.createdAtBatch.toNat + age.toNat := by
  rw [expireStale, lookup_foldl_release] at h
  split_ifs at h with hkey
  by_contra hlt
  refine hkey ((mem_expiredKeys mgr).mpr ⟨ps, h, ?_⟩)
  show ps.createdAtBatch + age < b
  rw [UInt64.lt_iff_toNat_lt, UInt64.toNat_add, Nat.mod_eq_of_lt hfits]
  omega

end

/-! ## Runs -/

/-- What the manager is called with, and what else happens to its tracker: nobody else
touches the pending entries. -/
inductive PendingInput where
  | registerMatch (args : MatchTerms)
  | registerSkipped (matchHash : String) (reason : SkipReason)
  | processResult (r : SettleResult)
  | onSettlementConfirmed (order : List String) (event : BatchTradeSettledEvent)
  | onSettlementFailed (matchHash : String) (code : AbortCode)
  | expireStale (currentBatchId settlementMaxAge : UInt64)
  | setConfirmed (token : String) (amount : UInt64)
  | earmarkWithdrawal (token : String) (amount : UInt64)
  | releaseEarmark (token : String) (amount : UInt64) (executed : Bool)

/-- One call, if it does not panic. -/
def pendingStep [HexCrate] (mgr : SettlementManager) : PendingInput → Option SettlementManager
  | .registerMatch args => (mgr.registerMatch args).map Prod.snd
  | .registerSkipped matchHash reason => some (mgr.registerSkipped matchHash reason)
  | .processResult r => some (mgr.processResult r).2
  | .onSettlementConfirmed order event => some (mgr.onSettlementConfirmed order event).2
  | .onSettlementFailed matchHash code => some (mgr.onSettlementFailed matchHash code).2
  | .expireStale currentBatchId settlementMaxAge =>
      some (mgr.expireStale currentBatchId settlementMaxAge)
  | .setConfirmed token amount =>
      some { mgr with tracker := mgr.tracker.setConfirmed token amount }
  | .earmarkWithdrawal token amount =>
      some { mgr with tracker := (mgr.tracker.earmarkWithdrawal token amount).2 }
  | .releaseEarmark token amount executed =>
      some { mgr with tracker := (mgr.tracker.releaseEarmark token amount executed).2 }

/-- The calls as a system. -/
def pendingSystem [HexCrate] : System SettlementManager PendingInput := ⟨pendingStep⟩

@[simp] theorem pendingSystem_step [HexCrate] : pendingSystem.step = pendingStep := rfl

/-- The registrations among the inputs. -/
def registeredTerms (inputs : List PendingInput) : List MatchTerms :=
  inputs.filterMap fun
    | .registerMatch args => some args
    | _ => none

/-- What the answers leave behind: a failed registration changes no pending entry, and after
expiry no pending match is too old. -/
def Leaves [HexCrate] (mgr : SettlementManager) : PendingInput → Prop
  | .registerMatch args => ∀ e mgr', mgr.registerMatch args = some (.error e, mgr') →
      mgr'.pending = mgr.pending ∧ ∀ token, mgr'.outflows token = mgr.outflows token ∧
        mgr'.inflows token = mgr.inflows token
  | .expireStale currentBatchId settlementMaxAge => ∀ k ps,
      (mgr.expireStale currentBatchId settlementMaxAge).pending.lookup k = some ps →
        ps.createdAtBatch.toNat + settlementMaxAge.toNat < 2 ^ 64 →
          ¬ ps.createdAtBatch.toNat + settlementMaxAge.toNat < currentBatchId.toNat
  | _ => True

/-- One step keeps the invariant, if a registration is of a match with these places. -/
theorem Mirrored.pendingStep [HexCrate] {outOf inOf : String → String} {own : UInt64}
    {mgr mgr' : SettlementManager} {input : PendingInput}
    (h : Mirrored outOf inOf mgr ∧ mgr.ownNftId = own)
    (hplaces : ∀ args, input = .registerMatch args → Places outOf inOf own args)
    (hstep : mgr.pendingStep input = some mgr') :
    Mirrored outOf inOf mgr' ∧ mgr'.ownNftId = own := by
  obtain ⟨h, rfl⟩ := h
  -- each operation has its own lemma; none changes the own NFT
  cases input with
  | registerMatch args =>
      obtain ⟨⟨answer, next⟩, hreg, rfl⟩ := Option.map_eq_some_iff.mp hstep
      refine ⟨h.registerMatch (hplaces args rfl) hreg, ?_⟩
      rw [registerMatch_eq] at hreg
      split_ifs at hreg
      rw [← ownNftId_registered mgr args, Option.some.inj hreg]
  | registerSkipped matchHash reason =>
      obtain rfl := Option.some.inj hstep
      exact ⟨h.registerSkipped matchHash reason, ownNftId_releasePendingInternal mgr matchHash⟩
  | processResult r =>
      obtain rfl := Option.some.inj hstep
      exact ⟨h.processResult r, ownNftId_processResult mgr r⟩
  | onSettlementConfirmed order event =>
      obtain rfl := Option.some.inj hstep
      exact ⟨h.onSettlementConfirmed order event, ownNftId_onSettlementConfirmed mgr order event⟩
  | onSettlementFailed matchHash code =>
      obtain rfl := Option.some.inj hstep
      exact ⟨h.onSettlementFailed matchHash code, ownNftId_onSettlementFailed mgr matchHash code⟩
  | expireStale b age =>
      obtain rfl := Option.some.inj hstep
      exact ⟨h.expireStale b age, ownNftId_expireStale mgr b age⟩
  | setConfirmed token amount =>
      obtain rfl := Option.some.inj hstep
      exact ⟨h.sameEntries (EscrowTracker.sameEntries_setConfirmed _ _ _), rfl⟩
  | earmarkWithdrawal token amount =>
      obtain rfl := Option.some.inj hstep
      exact ⟨h.sameEntries (EscrowTracker.sameEntries_earmarkWithdrawal _ _ _), rfl⟩
  | releaseEarmark token amount executed =>
      obtain rfl := Option.some.inj hstep
      exact ⟨h.sameEntries (EscrowTracker.sameEntries_releaseEarmark _ _ _ _), rfl⟩

/-- What the invariant says about the answers. -/
theorem Mirrored.leaves [HexCrate] {outOf inOf : String → String} {mgr : SettlementManager}
    {input : PendingInput} (h : Mirrored outOf inOf mgr)
    (hplaces : ∀ args, input = .registerMatch args → Places outOf inOf mgr.ownNftId args) :
    mgr.Leaves input := by
  cases input with
  | registerMatch args =>
      intro e mgr' hreg
      rcases h.registerMatch_cases (hplaces args rfl) hreg with ⟨-, hsame⟩ | ⟨hok, -⟩
      · exact hsame
      · cases hok
  | expireStale b age =>
      intro k ps hps hfits
      have hle := mgr.le_of_lookup_expireStale hps hfits
      omega
  | _ => trivial

/-- Matches with the same hash have the same places, so a place can be read off the hash. -/
theorem exists_places [HexCrate] (own : UInt64) {l : List MatchTerms}
    (hsame : ∀ args ∈ l, ∀ args' ∈ l, args.m.matchHash = args'.m.matchHash →
      args.m = args'.m ∧ args.baseToken = args'.baseToken ∧ args.quoteToken = args'.quoteToken) :
    ∃ outOf inOf : String → String, ∀ args ∈ l, Places outOf inOf own args := by
  let mgr₀ := new .new own
  let first (hash : String) : Option MatchTerms := l.find? fun args => args.m.hashHex == hash
  refine ⟨fun hash => ((first hash).map fun args => (mgr₀.flowOf args).outToken).getD "",
    fun hash => ((first hash).map fun args => (mgr₀.flowOf args).inToken).getD "", ?_⟩
  intro args hargs mgr hown
  obtain ⟨args', hfirst⟩ : ∃ args', first args.m.hashHex = some args' := by
    refine Option.isSome_iff_exists.mp (List.find?_isSome.mpr ⟨args, hargs, ?_⟩)
    exact beq_self_eq_true _
  have hhash : args'.m.hashHex = args.m.hashHex := by
    have := List.find?_some hfirst
    exact eq_of_beq this
  obtain ⟨hm, hbase, hquote⟩ := hsame args hargs args' (List.mem_of_find?_eq_some hfirst)
    (Match.hashHex_eq_iff.mp hhash.symm)
  rw [flowOf_congr (show mgr.ownNftId = mgr₀.ownNftId from hown)]
  dsimp only
  rw [hfirst]
  exact mgr₀.flowOf_tokens hm hbase hquote

/-- The pending map and the tracker stay in step, whatever the manager is called with: they
hold the same matches, each with one outflow and one inflow; a failed registration leaves all
entries as they were, and after expiry no match that is too old is pending. -/
theorem pending_stays_in_step [HexCrate] {tracker : EscrowTracker} (own : UInt64)
    {inputs : List PendingInput}
    (hempty : ∀ token, (tracker.balance token).pendingOut = ∅ ∧
      (tracker.balance token).pendingIn = ∅)
    (hdiv : ∀ args ∈ registeredTerms inputs,
      EscrowTracker.priceDivisor args.baseDecimals args.quoteDecimals ≠ 0)
    (hsame : ∀ args ∈ registeredTerms inputs, ∀ args' ∈ registeredTerms inputs,
      args.m.matchHash = args'.m.matchHash →
        args.m = args'.m ∧ args.baseToken = args'.baseToken ∧
          args.quoteToken = args'.quoteToken) :
    pendingSystem.Follows (fun mgr input => mgr.InStep ∧ mgr.Leaves input)
        (new tracker own) inputs ∧
      ∃ mgr, pendingSystem.run (new tracker own) inputs = some mgr ∧ mgr.InStep := by
  obtain ⟨outOf, inOf, hplaces⟩ := exists_places own hsame
  have hstart : Mirrored outOf inOf (new tracker own) ∧ (new tracker own).ownNftId = own := by
    refine ⟨⟨?_, ?_⟩, rfl⟩
    · intro k token
      rw [outflows, show (new tracker own).tracker = tracker from rfl, (hempty token).1]
      simp [new]
    · intro k token
      rw [inflows, show (new tracker own).tracker = tracker from rfl, (hempty token).2]
      simp [new]
  generalize new tracker own = mgr at hstart ⊢
  have hmem : ∀ (args : MatchTerms) (rest : List PendingInput),
      args ∈ registeredTerms (.registerMatch args :: rest) := fun _ _ => List.mem_cons_self
  induction inputs generalizing mgr with
  | nil => exact ⟨trivial, mgr, rfl, hstart.1.inStep⟩
  | cons input inputs ih =>
      have htail : ∀ args ∈ registeredTerms inputs, args ∈ registeredTerms (input :: inputs) := by
        intro args hargs
        unfold registeredTerms at hargs ⊢
        rw [List.mem_filterMap] at hargs ⊢
        obtain ⟨i, hi, heq⟩ := hargs
        exact ⟨i, List.mem_cons_of_mem _ hi, heq⟩
      have hinput : ∀ args, input = .registerMatch args → Places outOf inOf own args := by
        rintro args rfl
        exact hplaces args (hmem args inputs)
      -- a registration that is defined never stops the run
      obtain ⟨mgr₁, hstep⟩ : ∃ mgr₁, mgr.pendingStep input = some mgr₁ := by
        cases input with
        | registerMatch args =>
            rw [SettlementManager.pendingStep, registerMatch_eq,
              if_neg (hdiv args (hmem args inputs))]
            exact ⟨_, rfl⟩
        | _ => exact ⟨_, rfl⟩
      obtain ⟨hfollows, mgr', hrun, hin⟩ := ih (fun args hargs => hdiv args (htail args hargs))
        (fun args hargs args' hargs' => hsame args (htail args hargs) args' (htail args' hargs'))
        (fun args hargs => hplaces args (htail args hargs)) mgr₁
        (Mirrored.pendingStep hstart hinput hstep)
      refine ⟨⟨⟨hstart.1.inStep, hstart.1.leaves ?_⟩, ?_⟩, mgr', ?_, hin⟩
      · rw [hstart.2]
        exact hinput
      · intro s hs
        rw [pendingSystem_step, hstep] at hs
        obtain rfl := Option.some.inj hs
        exact hfollows
      · rw [System.run_cons, pendingSystem_step, hstep, Option.bind_some, hrun]

/-! ### A run -/

section

attribute [local instance] sampleExternals

/-- The event of the match of the two sample orders, under its own hash. -/
def sampleSettled : BatchTradeSettledEvent where
  batchId := sampleMatch.batchId
  poolId := sampleMatch.poolId
  tradeId := sampleMatch.hashHex
  buyerNftId := sampleMatch.buyer.order.nftId
  sellerNftId := sampleMatch.seller.order.nftId
  symbol := sampleMatch.symbol
  buyerPrice := sampleMatch.buyer.order.price
  sellerPrice := sampleMatch.seller.order.price
  clearingPrice := sampleMatch.settlementPrice
  baseAmount := sampleMatch.fillQuantity
  quoteAmount := 50
  buyerOrderHash := HexCrate.encode sampleMatch.buyer.orderHash.toList
  sellerOrderHash := HexCrate.encode sampleMatch.seller.orderHash.toList
  gasPayer := ""
  timestamp := 0

/-- NFT 2 buys: the match is registered twice, submitted, confirmed, and reported as failed
when it is gone; then it is registered once more and expires. -/
def twiceRegistered : List PendingInput :=
  let args := sampleSwap.terms 2 sampleMatch
  [.setConfirmed "KAY" 1000, .registerMatch args, .registerMatch args,
    .processResult (.submitted sampleMatch.hashHex "0xabc"), .earmarkWithdrawal "KAY" 100,
    .onSettlementConfirmed [sampleMatch.hashHex] sampleSettled,
    .onSettlementFailed sampleMatch.hashHex .nftBlocked, .registerMatch args,
    .expireStale 100 3]

/-- A match that is registered twice, and once more after its release. -/
theorem twiceRegistered_in_step :
    pendingSystem.Follows (fun mgr input => mgr.InStep ∧ mgr.Leaves input)
        (new .new 2) twiceRegistered ∧
      ∃ mgr, pendingSystem.run (new .new 2) twiceRegistered = some mgr ∧ mgr.InStep := by
  have hterms : ∀ args ∈ registeredTerms twiceRegistered,
      args = sampleSwap.terms 2 sampleMatch := by
    simp [registeredTerms, twiceRegistered]
  refine pending_stays_in_step 2 (fun _ => ⟨rfl, rfl⟩) ?_ ?_
  · intro args hargs
    rw [hterms args hargs]
    decide +kernel
  · intro args hargs args' hargs' _
    rw [hterms args hargs, hterms args' hargs']
    exact ⟨rfl, rfl, rfl⟩

end

end SettlementManager
