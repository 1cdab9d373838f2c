/-
# The token worker

A background task that runs the strategy's token actions: mint, claim, burn, lock, unlock
and donate.  It moves tokens of the on-chain escrow without telling the escrow tracker,
which was seeded from the chain at start-up.  So COMMIT offers only what is there exactly
as long as the actions have not removed more of a token than they added.
-/
import DeadmktNode.Runs
import DeadmktNode.StrategyConvert

/-! ## Actions -/

/-- What the strategy can ask for. -/
inductive StrategyAction where
  | auth (token : String)
  | commit (orders : List OrderSpec)
  | reveal (revealIndices : List UInt32)
  | mint (mAmount kAmount tAmount : UInt64)
  | claimMint
  | burnFromEscrow (amount : UInt64)
  | burnForProfit (amount : UInt64)
  | lock (symbol : String) (amount durationSecs : UInt64)
  | unlock (lockIndex : UInt64)
  | donateDust (recipientNftId : UInt64) (symbol : String) (amount : UInt64)
deriving DecidableEq, Repr

/-- A transaction of the worker. -/
inductive TokenCall where
  | requestMint (mAmount kAmount tAmount : UInt64)
  | claimMint
  | burnFromEscrow (amount : UInt64)
  | burnForProfit (amount : UInt64) (recipient : String)
  | lockFromEscrow (symbol : UInt8) (amount durationSecs : UInt64)
  | unlockToEscrow (lockIndex : UInt64)
  | donateDust (recipientNftId : UInt64) (symbol : UInt8) (amount : UInt64)
deriving DecidableEq, Repr

/-- The chain's answer to a transaction. -/
structure TxResultInfo where
  success : Bool
  gasUsed : UInt64
  vmStatus : String
deriving DecidableEq, Repr

/-- What the strategy is told about an action. -/
structure TokenActionResultData where
  action : String
  success : Bool
  message : String
deriving DecidableEq, Repr

/-! ## The worker -/

/-- The number of a token symbol. -/
def symbolId (symbol : String) : Except String UInt8 :=
  if symbol = "EMM" then .ok 0
  else if symbol = "KAY" then .ok 1
  else if symbol = "TEE" then .ok 2
  else .error ("unknown symbol: " ++ symbol)

/-- The name of an action and its transaction, or the reason why there is none.  Actions of
the batch cycle have no name here. -/
def tokenCall (payoutAddress : String) :
    StrategyAction → Option (String × Except String TokenCall)
  | .mint mAmount kAmount tAmount => some ("mint", .ok (.requestMint mAmount kAmount tAmount))
  | .claimMint => some ("claim_mint", .ok .claimMint)
  | .burnFromEscrow amount => some ("burn_from_escrow", .ok (.burnFromEscrow amount))
  | .burnForProfit amount =>
      some ("burn_for_profit", .ok (.burnForProfit amount payoutAddress))
  | .lock symbol amount durationSecs =>
      some ("lock", (symbolId symbol).map fun id => .lockFromEscrow id amount durationSecs)
  | .unlock lockIndex => some ("unlock", .ok (.unlockToEscrow lockIndex))
  | .donateDust recipientNftId symbol amount =>
      some ("donate_dust", (symbolId symbol).map fun id => .donateDust recipientNftId id amount)
  | .auth _ | .commit _ | .reveal _ => none

/-- One action of the worker, given the chain's answers: what the strategy is told. -/
def processAction (payoutAddress : String) (submit : TokenCall → Except String TxResultInfo)
    (action : StrategyAction) : Option TokenActionResultData :=
  (tokenCall payoutAddress action).map fun (name, call) =>
    match call with
    | .error message => ⟨name, false, message⟩
    | .ok call =>
        match submit call with
        | .ok r =>
            if r.success then ⟨name, true, "gas=" ++ toString r.gasUsed.toNat⟩
            else ⟨name, false, r.vmStatus⟩
        | .error e => ⟨name, false, e⟩

/-! ## The escrow on chain -/

/-- The three tokens, in the order of their symbol numbers. -/
def trippples : List String := ["EMM", "KAY", "TEE"]

namespace TokenCall

/-- What a transaction takes out of the escrow. -/
def removes (call : TokenCall) (token : String) : ℕ :=
  match call with
  | .burnFromEscrow amount | .burnForProfit amount _ =>
      if token ∈ trippples then amount.toNat else 0
  | .lockFromEscrow id amount _ | .donateDust _ id amount =>
      if trippples[id.toNat]? = some token then amount.toNat else 0
  | .requestMint .. | .claimMint | .unlockToEscrow _ => 0

/-- What a transaction puts into the escrow, out of what is claimed or unlocked. -/
def adds (call : TokenCall) (credited : String → ℕ) (token : String) : ℕ :=
  match call with
  | .claimMint | .unlockToEscrow _ => credited token
  | _ => 0

end TokenCall

/-- The tracker, the on-chain escrow, and what the worker removed and added so far. -/
structure TokenWorld where
  tracker : EscrowTracker
  chain : String → ℕ
  removed : String → ℕ
  added : String → ℕ

/-- The arguments of the order conversion in COMMIT. -/
structure CommitArgs where
  orderSpecs : List OrderSpec
  nftId : UInt64
  batchId : UInt64
  params : BatchParams
  tokenDecimals : HashMap String UInt8
  marketConfigs : List MarketConfig
  nonces : ℕ → Bytes

namespace CommitArgs

/-- The context of the conversion. -/
def context (args : CommitArgs) (tracker : EscrowTracker) : OrderValidationContext :=
  validationContext args.nftId args.batchId args.params tracker args.tokenDecimals
    args.marketConfigs

/-- The checked orders, of which `convertStrategyOrders` seals the accepted ones. -/
def checks (args : CommitArgs) (tracker : EscrowTracker) : Option OrderChecks :=
  validateOrders args.orderSpecs (args.context tracker) args.nonces

theorem convertStrategyOrders_eq [Externals] (args : CommitArgs) (tracker : EscrowTracker)
    (signingKey : SigningKey) :
    convertStrategyOrders args.orderSpecs signingKey args.nftId args.batchId args.params
        tracker args.tokenDecimals args.marketConfigs args.nonces
      = (args.checks tracker).map fun result =>
          result.accepted.map fun p => p.2.seal signingKey := rfl

end CommitArgs

namespace TokenWorld

inductive Input where
  /-- the worker runs an action; `answer` is what the chain says if the escrow covers it -/
  | action (a : StrategyAction) (answer : Except String TxResultInfo) (credited : String → ℕ)
  /-- COMMIT converts the strategy's orders -/
  | commit (args : CommitArgs)

/-- Does the chain execute a transaction?  Only if the escrow covers it. -/
def Executes (w : TokenWorld) (call : TokenCall) (answer : Except String TxResultInfo) :
    Prop :=
  (answer.toOption.any TxResultInfo.success) ∧
    ∀ token ∈ trippples, call.removes token ≤ w.chain token

instance (w : TokenWorld) (call : TokenCall) (answer : Except String TxResultInfo) :
    Decidable (w.Executes call answer) :=
  inferInstanceAs (Decidable (_ ∧ _))

/-- A transaction of the worker on chain. -/
def execute (w : TokenWorld) (call : TokenCall) (answer : Except String TxResultInfo)
    (credited : String → ℕ) : TokenWorld :=
  if w.Executes call answer then
    { w with
      chain := fun token =>
        w.chain token - call.removes token + call.adds credited token
      removed := fun token => w.removed token + call.removes token
      added := fun token => w.added token + call.adds credited token }
  else w

def step (payoutAddress : String) (w : TokenWorld) : Input → Option TokenWorld
  | .action a answer credited =>
      match tokenCall payoutAddress a with
      | some (_, .ok call) => some (w.execute call answer credited)
      | _ => some w
  | .commit _ => some w

def system (payoutAddress : String) : System TokenWorld Input := ⟨step payoutAddress⟩

/-- The tracker was just seeded from the chain. -/
structure Seeded (w : TokenWorld) : Prop where
  confirmed : ∀ token, (w.tracker.balance token).confirmed.toNat = w.chain token
  pendingOut : ∀ token, (w.tracker.balance token).pendingOut = ∅
  removed : ∀ token, w.removed token = 0
  added : ∀ token, w.added token = 0

/-- At a COMMIT: the accepted orders cost at most what the escrow holds. -/
def OffersCovered (w : TokenWorld) : Input → Prop
  | .commit args => ∀ result, args.checks w.tracker = some result → ∀ token,
      totalOutflow args.tokenDecimals token result.accepted ≤ w.chain token
  | .action .. => True

/-- At a COMMIT: the worker has removed no more of any token than it added, and the
outflows of the batch fit. -/
def NothingMissing (w : TokenWorld) : Input → Prop
  | .commit args => (∀ token, w.removed token ≤ w.added token) ∧
      OutflowsFit (args.context w.tracker) args.nonces args.orderSpecs
  | .action .. => True

/-! ## The invariant -/

/-- The tracker's balances differ from the chain's by what the worker moved. -/
def Inv (w : TokenWorld) : Prop :=
  ∀ token, (w.tracker.projected token).toNat + w.added token
    ≤ w.chain token + w.removed token

theorem Seeded.inv {w : TokenWorld} (h : w.Seeded) : w.Inv := by
  intro token
  have hsum : exactSum (w.tracker.balance token).pendingOut < 2 ^ 64 := by
    rw [h.pendingOut]
    exact Nat.two_pow_pos 64
  rw [EscrowTracker.projected_eq, TokenBalance.toNat_projected hsum, h.confirmed, h.removed,
    h.added]
  omega

/-- A transaction removes only the three tokens. -/
theorem removes_of_notMem (call : TokenCall) {token : String} (h : token ∉ trippples) :
    call.removes token = 0 := by
  have hget : ∀ i : ℕ, trippples[i]? ≠ some token := fun i hi => h (List.mem_of_getElem? hi)
  cases call with
  | burnFromEscrow | burnForProfit => exact if_neg h
  | lockFromEscrow id | donateDust _ id => exact if_neg (hget id.toNat)
  | requestMint | claimMint | unlockToEscrow => rfl

/-- **Step.**  A transaction moves both sides of the invariant by the same amounts. -/
theorem Inv.execute {w : TokenWorld} (hw : w.Inv) (call : TokenCall)
    (answer : Except String TxResultInfo) (credited : String → ℕ) :
    (w.execute call answer credited).Inv := by
  unfold TokenWorld.execute
  split_ifs with hexec
  · intro token
    have hinv := hw token
    have hcover : call.removes token ≤ w.chain token := by
      by_cases hmem : token ∈ trippples
      · exact hexec.2 token hmem
      · rw [removes_of_notMem call hmem]
        exact Nat.zero_le _
    dsimp only
    omega
  · exact hw

theorem Inv.step {payoutAddress : String} {w w' : TokenWorld} {i : Input} (hw : w.Inv)
    (h : w.step payoutAddress i = some w') : w'.Inv := by
  cases i with
  | action a answer credited =>
      unfold TokenWorld.step at h
      dsimp only at h
      split at h
      · obtain rfl := Option.some.inj h
        exact hw.execute _ answer credited
      · obtain rfl := Option.some.inj h
        exact hw
  | commit args =>
      obtain rfl := Option.some.inj h
      exact hw

/-- **Offers are covered** at every COMMIT of a run from a seeded tracker, as long as the
worker has not removed more of any token than it added, and the outflows of the batch
fit. -/
theorem offers_covered (payoutAddress : String) {w : TokenWorld} {is : List Input}
    (hseeded : w.Seeded) (hnone : (system payoutAddress).Follows NothingMissing w is) :
    (system payoutAddress).Follows OffersCovered w is := by
  refine (system payoutAddress).follows_of_invariant (I := Inv)
    (fun s i s' hs _ hstep => Inv.step hs hstep) ?_ hseeded.inv hnone
  intro s i hs hcond
  cases i with
  | action => trivial
  | commit args =>
      obtain ⟨hledger, hfit⟩ := hcond
      intro result hresult token
      have hle := validateOrders_covered hfit hresult token
      rw [CommitArgs.context, projectedBalances_validationContext] at hle
      have hinv := hs token
      have hledger := hledger token
      exact hle.trans (by omega)

/-! ## A lock before a COMMIT -/

/-- A node with 1 `EMM` in escrow; the token has 5 decimals. -/
def sellerWorld : TokenWorld where
  tracker := EscrowTracker.new.setConfirmed "EMM" 100000
  chain token := if token = "EMM" then 100000 else 0
  removed _ := 0
  added _ := 0

theorem sellerWorld_seeded : sellerWorld.Seeded := by
  have hbal : ∀ token, sellerWorld.tracker.balance token
      = if token = "EMM" then ⟨100000, ∅, ∅, 0⟩ else .empty :=
    fun token => EscrowTracker.balance_update _ _ _ _
  refine ⟨fun token => ?_, fun token => ?_, fun _ => rfl, fun _ => rfl⟩
  all_goals rw [hbal token]
  · show _ = if token = "EMM" then 100000 else 0
    split_ifs <;> rfl
  · split_ifs <;> rfl

/-- The strategy sells 1 `EMM` at 1 `KAY` in batch 7. -/
def sellOne : CommitArgs where
  orderSpecs := [⟨"EMM/KAY", "sell", "1", "1"⟩]
  nftId := 1
  batchId := 7
  params := ⟨10, 4, 3, 1, 2, 3⟩
  tokenDecimals := ∅
  marketConfigs := [⟨[69, 77, 77, 47, 75, 65, 89], 1⟩]
  nonces _ := List.replicate 32 0

/-- 1 `EMM`, as an amount of each token. -/
def oneEmm (token : String) : ℕ := if token = "EMM" then 100000 else 0

/-- The strategy unlocks 1 `EMM`. -/
def unlockOne : Input := .action (.unlock 0) (.ok ⟨true, 10, ""⟩) oneEmm

/-- The strategy locks 1 `EMM` for a day. -/
def lockOne : Input := .action (.lock "EMM" 100000 86400) (.ok ⟨true, 10, ""⟩) fun _ => 0

theorem sellOne_fits (tracker : EscrowTracker) :
    OutflowsFit (sellOne.context tracker) sellOne.nonces sellOne.orderSpecs := by
  have hconv : convertedOrders (sellOne.context tracker) sellOne.nonces 0
      (effectiveSpecs (sellOne.context tracker) sellOne.orderSpecs)
      = [(⟨"EMM/KAY", "sell", "1", "1"⟩,
          ⟨[69, 77, 77, 47, 75, 65, 89], 0, 100000000, 100000, 1, 7,
            List.replicate 32 0⟩)] := by
    rfl
  refine ⟨fun p hp hside => ?_, fun token => ?_⟩
  · rw [hconv] at hp
    obtain rfl := List.mem_singleton.mp hp
    exact absurd hside (by decide)
  · rw [hconv, totalOutflow, List.map_singleton, List.sum_singleton, exactOutflow,
      if_neg (by decide)]
    split_ifs <;> decide

/-- The node unlocks as much as it locks: its sell is covered. -/
theorem unlocked_sell_covered :
    (system "").Follows OffersCovered sellerWorld [unlockOne, lockOne, .commit sellOne] := by
  refine offers_covered "" sellerWorld_seeded ⟨trivial, fun s₁ h₁ => ⟨trivial, fun s₂ h₂ => ?_⟩⟩
  obtain rfl := Option.some.inj h₁
  obtain rfl := Option.some.inj h₂
  refine ⟨⟨fun token => ?_, sellOne_fits _⟩, fun _ _ => trivial⟩
  have hunlock : sellerWorld.Executes (.unlockToEscrow 0) (.ok ⟨true, 10, ""⟩) := by
    decide +kernel
  have hlock : (sellerWorld.execute (.unlockToEscrow 0) (.ok ⟨true, 10, ""⟩)
      oneEmm).Executes (.lockFromEscrow 0 100000 86400) (.ok ⟨true, 10, ""⟩) := by
    decide +kernel
  rw [execute, if_pos hlock, execute, if_pos hunlock]
  simp only [TokenCall.removes, TokenCall.adds, oneEmm, sellerWorld, trippples]
  by_cases h : token = "EMM" <;> simp [h, eq_comm]

/-- The checked sell. -/
def sellOneChecks : OrderChecks :=
  (sellOne.checks sellerWorld.tracker).getD ⟨[], [], ∅⟩

theorem sellOne_checks : sellOne.checks sellerWorld.tracker = some sellOneChecks := by
  obtain ⟨result, hresult⟩ := Option.isSome_iff_exists.mp
    (show (sellOne.checks sellerWorld.tracker).isSome by decide +kernel)
  rw [sellOneChecks, hresult]
  rfl

/-- The node locks its only `EMM` and then offers it for sale. -/
theorem locked_sell_offered :
    ¬ ∀ (payoutAddress : String) (w : TokenWorld) (is : List Input), w.Seeded →
      (system payoutAddress).Follows OffersCovered w is := by
  intro h
  have hcov := (h "" sellerWorld [lockOne, .commit sellOne] sellerWorld_seeded).2 _ rfl
  have hle := hcov.1 sellOneChecks sellOne_checks "EMM"
  revert hle
  decide +kernel

end TokenWorld
