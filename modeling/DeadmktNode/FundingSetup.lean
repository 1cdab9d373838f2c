/-
# Funding the escrow at setup

The setup wizard brings the three tokens of a new node into its escrow.  It looks at the chain
and picks a branch: an escrow that is funded already is left alone, tokens in the wallet are
deposited one after another, and otherwise tokens are minted.  After an error the setup is run
again, on the chain as the failed run left it.  A run that deposited some of the tokens and
failed at a later one leaves an escrow that the next run takes for a funded one; so a run that
returns without an error has funded the escrow exactly as long as no run follows such a failure
(`Ledger.setup_resumes_iff`).
-/
import DeadmktNode.TokenWorker

namespace Setup

/-! ## Errors and texts -/

/-- The errors that funding can end with. -/
inductive SetupError where
  | chainError (message : String)
  | userDeclined
  | aborted
  | ioError (message : String)
deriving DecidableEq, Repr

/-- A token and how much of it the escrow holds. -/
structure TokenBalance where
  symbol : String
  amount : UInt64
  metadataAddress : String
deriving DecidableEq, Repr

/-- Does the status text contain the given text? -/
def statusContains (vmStatus text : String) : Bool :=
  vmStatus.toList.tails.any fun rest => text.toList.isPrefixOf rest

/-- The metadata addresses of the three tokens. -/
structure Metadata where
  emm : String
  kay : String
  tee : String
deriving DecidableEq

/-- An amount of each of the three tokens. -/
structure Balances where
  emm : UInt64
  kay : UInt64
  tee : UInt64
deriving DecidableEq

namespace Balances

def tokens (b : Balances) (m : Metadata) : List TokenBalance :=
  [⟨"EMM", b.emm, m.emm⟩, ⟨"KAY", b.kay, m.kay⟩, ⟨"TEE", b.tee, m.tee⟩]

/-- Some token is there. -/
def somePositive (b : Balances) : Bool := b.emm > 0 || b.kay > 0 || b.tee > 0

/-- Every token is there. -/
def allPositive (b : Balances) : Bool := b.emm > 0 && b.kay > 0 && b.tee > 0

theorem somePositive_of_emm {b : Balances} (h : 0 < b.emm) : b.somePositive = true := by
  simp [somePositive, h]

end Balances

/-! ## The chain, the user and the clock -/

/-- A part of the setup: it may end with an error, and what it did until then stays done. -/
abbrev SetupM (σ α : Type) := ExceptT SetupError (StateM σ) α

namespace SetupM

variable {σ α β : Type}

/-- Run a part of the setup: its result and what it left behind. -/
def exec (x : SetupM σ α) (s : σ) : Except SetupError α × σ := x.run.run s

@[simp] theorem exec_pure (a : α) (s : σ) : exec (pure a : SetupM σ α) s = (.ok a, s) := rfl

@[simp] theorem exec_throw (e : SetupError) (s : σ) :
    exec (throw e : SetupM σ α) s = (.error e, s) := rfl

@[simp] theorem exec_get (s : σ) : exec (get : SetupM σ σ) s = (.ok s, s) := rfl

@[simp] theorem exec_ofExcept_ok (a : α) (s : σ) :
    exec (MonadExcept.ofExcept (.ok a) : SetupM σ α) s = (.ok a, s) := rfl

theorem exec_bind_ok {x : SetupM σ α} {f : α → SetupM σ β} {s s' : σ} {a : α}
    (h : exec x s = (.ok a, s')) : exec (x >>= f) s = exec (f a) s' := by
  unfold exec at h ⊢
  rw [ExceptT.run_bind, StateT.run_bind, h]
  rfl

theorem exec_bind_error {x : SetupM σ α} {f : α → SetupM σ β} {s s' : σ} {e : SetupError}
    (h : exec x s = (.error e, s')) : exec (x >>= f) s = (.error e, s') := by
  unfold exec at h ⊢
  rw [ExceptT.run_bind, StateT.run_bind, h]
  rfl

end SetupM

/-- What funding asks of the chain, the user and the clock when it has to mint. -/
structure MintClient (σ : Type) where
  getNftMintState : σ → String → Except SetupError (Bool × Bool)
  getPendingMintClaimableAt : σ → String → Except SetupError (Option UInt64)
  submitClaimMint : SetupM σ TxResultInfo
  submitRequestMint : UInt64 → UInt64 → UInt64 → SetupM σ TxResultInfo
  readLine : SetupM σ String
  now : σ → UInt64
  sleep : ℕ → σ → σ
  cancellableSleep : ℕ → SetupM σ Unit

/-- The chain client of the setup. -/
structure ChainClient (σ : Type) extends MintClient σ where
  getTrippplesMetadata : σ → UInt8 → Except SetupError String
  getEscrowBalance : σ → UInt64 → String → Except SetupError UInt64
  getFaBalance : σ → String → Except SetupError UInt64
  submitDeposit : String → UInt64 → SetupM σ TxResultInfo

/-- A number that cannot be read counts as 0. -/
def unwrapOrZero : Except SetupError UInt64 → UInt64
  | .ok amount => amount
  | .error _ => 0

namespace ChainClient

variable {σ : Type} (chain : ChainClient σ)

/-- The metadata addresses, or the first error. -/
def metadata (s : σ) : Except SetupError Metadata := do
  let emmMeta ← chain.getTrippplesMetadata s 0
  let kayMeta ← chain.getTrippplesMetadata s 1
  let teeMeta ← chain.getTrippplesMetadata s 2
  return ⟨emmMeta, kayMeta, teeMeta⟩

/-- The balances of the three tokens in escrow. -/
def escrowBalances (nftId : UInt64) (m : Metadata) (s : σ) : Balances where
  emm := unwrapOrZero (chain.getEscrowBalance s nftId m.emm)
  kay := unwrapOrZero (chain.getEscrowBalance s nftId m.kay)
  tee := unwrapOrZero (chain.getEscrowBalance s nftId m.tee)

/-- The balances of the three tokens in the wallet. -/
def walletBalances (m : Metadata) (s : σ) : Balances where
  emm := unwrapOrZero (chain.getFaBalance s m.emm)
  kay := unwrapOrZero (chain.getFaBalance s m.kay)
  tee := unwrapOrZero (chain.getFaBalance s m.tee)

/-! ## Deposits -/

/-- Deposit one token. -/
def deposit (symbol metadataAddress : String) (amount : UInt64) : SetupM σ Unit := do
  let dep ← chain.submitDeposit metadataAddress amount
  if !dep.success then
    throw (.chainError (symbol ++ " deposit failed: " ++ dep.vmStatus))

/-- Deposit the wallet, one token after another. -/
def depositAll (m : Metadata) (wallet : Balances) : SetupM σ (List TokenBalance) := do
  chain.deposit "EMM" m.emm wallet.emm
  chain.deposit "KAY" m.kay wallet.kay
  chain.deposit "TEE" m.tee wallet.tee
  return wallet.tokens m

/-! ## Minting -/

/-- Look at the escrow every three seconds until all tokens are there. -/
def awaitEscrow (nftId : UInt64) (m : Metadata) : ℕ → SetupM σ (List TokenBalance)
  | 0 => throw (.chainError "Claim succeeded but escrow not funded after 90s. Re-run setup.")
  | polls + 1 => do
      modify (chain.sleep 3)
      let escrow := chain.escrowBalances nftId m (← get)
      if escrow.allPositive then
        return escrow.tokens m
      awaitEscrow nftId m polls

/-- A mint is pending: claim it if its time has come, else leave it to the strategy. -/
def claimPending (nftId : UInt64) (trusteeAddress : String) (m : Metadata) :
    SetupM σ (List TokenBalance) := do
  let s ← get
  let claimableAt : Option UInt64 :=
    match chain.getPendingMintClaimableAt s trusteeAddress with
    | .ok claimableAt => claimableAt
    | .error _ => none
  match claimableAt with
  | none => return []
  | some time =>
      if chain.now s < time then
        return []
      let claim ← chain.submitClaimMint
      if !claim.success then
        throw (.chainError ("Claim failed: " ++ claim.vmStatus))
      chain.awaitEscrow nftId m 30

/-- Try every ten seconds to claim the first mint. -/
def awaitFirstClaim (nftId : UInt64) (m : Metadata) : ℕ → SetupM σ (List TokenBalance)
  | 0 => throw (.chainError "Timed out waiting for first mint claim. Re-run setup to try again.")
  | attempts + 1 => do
      chain.cancellableSleep 10
      let claim ← chain.submitClaimMint
      if claim.success then
        chain.awaitEscrow nftId m 30
      else if !statusContains claim.vmStatus "HOLD_PERIOD_ACTIVE" &&
          statusContains claim.vmStatus "INSUFFICIENT_BALANCE_FOR_TRANSACTION_FEE" then
        throw (.chainError ("Wallet out of gas. Fund the trustee address with more SUPRA and " ++
          "re-run setup."))
      else
        awaitFirstClaim nftId m attempts

end ChainClient

/-- 100 quants of SUPRA for each base unit. -/
def supraPerTokenUnit : UInt64 := 100

/-- The part of the SUPRA that is used for minting. -/
def mintSupraFractionPct : UInt64 := 70

/-- The token that the user wants more of. -/
def weightedIndex (input : String) : ℕ :=
  match String.ofList ((trimChars input.toList).map Char.toUpper) with
  | "E" | "EMM" => 0
  | "K" | "KAY" => 1
  | _ => 2

/-- How much of each token to mint, if there is SUPRA for at least ten tokens. -/
def mintSplit (supraBalance : UInt64) (weightedIndex : ℕ) : Option Balances :=
  let availableSupra := supraBalance * mintSupraFractionPct / 100
  let totalBaseUnits := availableSupra / supraPerTokenUnit
  let total := totalBaseUnits / 1000000 * 1000000
  if total < 1000000 then none
  else
    let heavy := total * 4 / 10 / 100000 * 100000
    let light := total * 3 / 10 / 100000 * 100000
    let remainder := total - heavy - 2 * light
    let heavy := heavy + remainder
    match weightedIndex with
    | 0 => some ⟨heavy, light, light⟩
    | 1 => some ⟨light, heavy, light⟩
    | _ => some ⟨light, light, heavy⟩

namespace ChainClient

variable {σ : Type} (chain : ChainClient σ)

/-- No mint is pending: request one, and wait for it if it is the first. -/
def requestMint (supraBalance nftId : UInt64) (m : Metadata) (firstMintDone : Bool) :
    SetupM σ (List TokenBalance) := do
  let weightInput ← chain.readLine
  match mintSplit supraBalance (weightedIndex weightInput) with
  | none =>
      throw (.chainError "Insufficient SUPRA to mint. Fund with more SUPRA and try again.")
  | some amounts =>
      let mintResult ← chain.submitRequestMint amounts.emm amounts.kay amounts.tee
      if !mintResult.success then
        if statusContains mintResult.vmStatus "HAS_PENDING_MINT" ||
            statusContains mintResult.vmStatus "E_HAS_PENDING_MINT" then
          return []
        throw (.chainError ("Failed to request mint: " ++ mintResult.vmStatus))
      if !firstMintDone then
        chain.awaitFirstClaim nftId m 60
      else
        return []

/-! ## The choice of the branch -/

/-- Bring the three tokens into the escrow: the checks in the order of the source. -/
def autoMintAndDeposit (supraBalance nftId : UInt64) (trusteeAddress : String) :
    SetupM σ (List TokenBalance) := do
  let s ← get
  let m ← MonadExcept.ofExcept (chain.metadata s)
  let escrow := chain.escrowBalances nftId m s
  if escrow.somePositive then
    return escrow.tokens m
  let wallet := chain.walletBalances m s
  if wallet.allPositive then
    chain.depositAll m wallet
  else
    let (firstMintDone, hasPending) :=
      match chain.getNftMintState s trusteeAddress with
      | .ok mintState => mintState
      | .error _ => (false, false)
    if hasPending then
      chain.claimPending nftId trusteeAddress m
    else
      chain.requestMint supraBalance nftId m firstMintDone

/-- **Check 1.**  An escrow that holds some token is left as it is. -/
theorem exec_of_escrow (supraBalance nftId : UInt64) (trusteeAddress : String) {s : σ}
    {m : Metadata} (hm : chain.metadata s = .ok m)
    (hescrow : (chain.escrowBalances nftId m s).somePositive = true) :
    (chain.autoMintAndDeposit supraBalance nftId trusteeAddress).exec s
      = (.ok ((chain.escrowBalances nftId m s).tokens m), s) := by
  unfold autoMintAndDeposit
  rw [SetupM.exec_bind_ok (SetupM.exec_get s), hm,
    SetupM.exec_bind_ok (SetupM.exec_ofExcept_ok m s), if_pos hescrow]
  rfl

/-- **Check 2.**  With an empty escrow and all tokens in the wallet, the wallet is deposited. -/
theorem exec_of_wallet (supraBalance nftId : UInt64) (trusteeAddress : String) {s : σ}
    {m : Metadata} (hm : chain.metadata s = .ok m)
    (hescrow : (chain.escrowBalances nftId m s).somePositive = false)
    (hwallet : (chain.walletBalances m s).allPositive = true) :
    (chain.autoMintAndDeposit supraBalance nftId trusteeAddress).exec s
      = (chain.depositAll m (chain.walletBalances m s)).exec s := by
  unfold autoMintAndDeposit
  rw [SetupM.exec_bind_ok (SetupM.exec_get s), hm,
    SetupM.exec_bind_ok (SetupM.exec_ofExcept_ok m s),
    if_neg (by rw [hescrow]; exact Bool.false_ne_true)]
  dsimp only
  rw [if_pos hwallet]

end ChainClient

/-! ## The chain as a ledger -/

/-- The three tokens. -/
inductive Token where
  | emm
  | kay
  | tee
deriving DecidableEq, Repr

/-- The addresses of the tokens on chain, which differ. -/
structure Addresses extends Metadata where
  nodup : [emm, kay, tee].Nodup

namespace Addresses

/-- The token at an address. -/
def tokenOf (a : Addresses) (metadataAddress : String) : Option Token :=
  if metadataAddress = a.emm then some .emm
  else if metadataAddress = a.kay then some .kay
  else if metadataAddress = a.tee then some .tee
  else none

variable (a : Addresses)

@[simp] theorem tokenOf_emm : a.tokenOf a.emm = some .emm := if_pos rfl

@[simp] theorem tokenOf_kay : a.tokenOf a.kay = some .kay := by
  have h := a.nodup
  simp only [List.nodup_cons, List.mem_cons, not_or] at h
  unfold tokenOf
  rw [if_neg (fun heq => h.1.1 heq.symm), if_pos rfl]

@[simp] theorem tokenOf_tee : a.tokenOf a.tee = some .tee := by
  have h := a.nodup
  simp only [List.nodup_cons, List.mem_cons, not_or] at h
  unfold tokenOf
  rw [if_neg (fun heq => h.1.2.1 heq.symm), if_neg (fun heq => h.2.1.1 heq.symm), if_pos rfl]

end Addresses

namespace Balances

def get (b : Balances) : Token → UInt64
  | .emm => b.emm
  | .kay => b.kay
  | .tee => b.tee

def set (b : Balances) (amount : UInt64) : Token → Balances
  | .emm => { b with emm := amount }
  | .kay => { b with kay := amount }
  | .tee => { b with tee := amount }

/-- Nothing of any token. -/
def zero : Balances := ⟨0, 0, 0⟩

end Balances

/-- What the wallet and the escrow of the node hold. -/
structure Ledger where
  wallet : Balances
  escrow : Balances
deriving DecidableEq

/-- The answers to the deposits of one run: an error, or a transaction with its status. -/
abbrev Pattern := Token → Except SetupError TxResultInfo

/-- The deposit of the token succeeds. -/
def Pattern.succeeds (p : Pattern) (t : Token) : Bool :=
  match p t with
  | .ok r => r.success
  | .error _ => false

namespace Ledger

/-- Move an amount from the wallet to the escrow. -/
def move (l : Ledger) (t : Token) (amount : UInt64) : Ledger where
  wallet := l.wallet.set (l.wallet.get t - amount) t
  escrow := l.escrow.set (l.escrow.get t + amount) t

/-- The chain client over a ledger: a deposit that succeeds moves its amount. -/
def client (a : Addresses) (mint : MintClient Ledger) (p : Pattern) : ChainClient Ledger where
  toMintClient := mint
  getTrippplesMetadata _ symbol :=
    if symbol = 0 then .ok a.emm
    else if symbol = 1 then .ok a.kay
    else if symbol = 2 then .ok a.tee
    else .error (.chainError "unknown symbol")
  getEscrowBalance l _ metadataAddress :=
    .ok (((a.tokenOf metadataAddress).map l.escrow.get).getD 0)
  getFaBalance l metadataAddress := .ok (((a.tokenOf metadataAddress).map l.wallet.get).getD 0)
  submitDeposit metadataAddress amount :=
    match a.tokenOf metadataAddress with
    | none => throw (.chainError "unknown token")
    | some t =>
        match p t with
        | .error e => throw e
        | .ok r => do
            if r.success then
              modify fun l => l.move t amount
            return r

/-- A run of the setup on a ledger. -/
def setup (a : Addresses) (mint : MintClient Ledger) (supraBalance nftId : UInt64)
    (trusteeAddress : String) (l : Ledger) (p : Pattern) :
    Except SetupError (List TokenBalance) × Ledger :=
  ((client a mint p).autoMintAndDeposit supraBalance nftId trusteeAddress).exec l

section

variable {a : Addresses} {mint : MintClient Ledger} {supraBalance nftId : UInt64}
  {trusteeAddress : String} {p : Pattern} {l : Ledger} {w : Balances}

/-- The chain knows the addresses of the tokens, -/
theorem metadata_client : (client a mint p).metadata l = .ok a.toMetadata := rfl

/-- what is in escrow, -/
theorem escrowBalances_client :
    (client a mint p).escrowBalances nftId a.toMetadata l = l.escrow := by
  unfold ChainClient.escrowBalances client
  simp [unwrapOrZero, Balances.get]

/-- and what is in the wallet. -/
theorem walletBalances_client : (client a mint p).walletBalances a.toMetadata l = l.wallet := by
  unfold ChainClient.walletBalances client
  simp [unwrapOrZero, Balances.get]

/-- A deposit that succeeds moves its amount; any other changes nothing and ends the run. -/
theorem exec_deposit (a : Addresses) (mint : MintClient Ledger) (p : Pattern) (l : Ledger)
    (symbol : String) {metadataAddress : String} (amount : UInt64) {t : Token}
    (ht : a.tokenOf metadataAddress = some t) :
    (p.succeeds t = true ∧ ((client a mint p).deposit symbol metadataAddress amount).exec l
        = (.ok (), l.move t amount)) ∨
      (p.succeeds t = false ∧ ∃ e, ((client a mint p).deposit symbol metadataAddress amount).exec l
        = (.error e, l)) := by
  unfold ChainClient.deposit Pattern.succeeds
  have hsubmit : (client a mint p).submitDeposit metadataAddress amount
      = match p t with
        | .error e => throw e
        | .ok r => do
            if r.success then
              modify fun l => l.move t amount
            return r := by
    unfold client
    dsimp only
    rw [ht]
  cases hp : p t with
  | error e =>
      rw [hp] at hsubmit
      refine .inr ⟨rfl, e, SetupM.exec_bind_error ?_⟩
      rw [hsubmit]
      rfl
  | ok r =>
      rw [hp] at hsubmit
      cases hr : r.success with
      | true =>
          left
          refine ⟨hr, ?_⟩
          -- the deposit went through
          have hmoves : ((client a mint p).submitDeposit metadataAddress amount).exec l
              = (.ok r, l.move t amount) := by
            rw [hsubmit]
            dsimp only
            rw [hr]
            rfl
          rw [SetupM.exec_bind_ok hmoves, hr]
          rfl
      | false =>
          right
          refine ⟨hr, .chainError (symbol ++ " deposit failed: " ++ r.vmStatus), ?_⟩
          -- the deposit was submitted and failed
          have hkeeps : ((client a mint p).submitDeposit metadataAddress amount).exec l
              = (.ok r, l) := by
            rw [hsubmit]
            dsimp only
            rw [hr]
            rfl
          rw [SetupM.exec_bind_ok hkeeps, hr]
          rfl

end

/-! ## Setups one after another -/

/-- Everything is in the wallet. -/
def unfunded (w : Balances) : Ledger := ⟨w, .zero⟩

/-- Everything is in the escrow. -/
def funded (w : Balances) : Ledger := ⟨.zero, w⟩

/-- A run of the setup: the answers to its deposits, and what it meets if it has to mint. -/
structure SetupRun where
  pattern : Pattern
  mint : MintClient Ledger
  supraBalance : UInt64

/-- Setups of one node, one after another. -/
def setups (a : Addresses) (nftId : UInt64) (trusteeAddress : String) :
    System Ledger SetupRun where
  step l r := some (setup a r.mint r.supraBalance nftId trusteeAddress l r.pattern).2

/-- What a setup shows: whether it returns without an error, and the ledger after it. -/
def outcome (a : Addresses) (nftId : UInt64) (trusteeAddress : String) (l : Ledger)
    (r : SetupRun) : Option (Bool × Ledger) :=
  let result := setup a r.mint r.supraBalance nftId trusteeAddress l r.pattern
  some (result.1.isOk, result.2)

section

variable {a : Addresses} {mint : MintClient Ledger} {supraBalance nftId : UInt64}
  {trusteeAddress : String} {p : Pattern} {l : Ledger} {w : Balances}

/-- An escrow with some token in it is taken for a funded one. -/
theorem setup_of_somePositive (h : l.escrow.somePositive = true) :
    setup a mint supraBalance nftId trusteeAddress l p
      = (.ok (l.escrow.tokens a.toMetadata), l) := by
  have hescrow : ((client a mint p).escrowBalances nftId a.toMetadata l).somePositive = true := by
    rwa [escrowBalances_client]
  have hcheck :=
    (client a mint p).exec_of_escrow supraBalance nftId trusteeAddress metadata_client hescrow
  rwa [escrowBalances_client] at hcheck

/-- A setup of an unfunded node deposits the wallet. -/
theorem setup_unfunded (hw : w.allPositive = true) :
    setup a mint supraBalance nftId trusteeAddress (unfunded w) p
      = ((client a mint p).depositAll a.toMetadata w).exec (unfunded w) := by
  have hescrow : ((client a mint p).escrowBalances nftId a.toMetadata
      (unfunded w)).somePositive = false := by
    rw [escrowBalances_client]
    rfl
  have hwallet :
      ((client a mint p).walletBalances a.toMetadata (unfunded w)).allPositive = true := by
    rwa [walletBalances_client]
  have hcheck := (client a mint p).exec_of_wallet supraBalance nftId trusteeAddress
    metadata_client hescrow hwallet
  rwa [walletBalances_client] at hcheck

/-- A token that is still in the wallet is not in the escrow. -/
theorem ne_funded_of_wallet {t : Token} (h : 0 < l.wallet.get t) : l ≠ funded w := by
  rintro rfl
  have hempty : (funded w).wallet.get t = 0 := by cases t <;> rfl
  rw [hempty] at h
  exact absurd h (by decide)

/-- Such a setup fails at the first deposit and changes nothing, or deposits everything, or
fails later and leaves an escrow with a part of the tokens. -/
theorem setup_unfunded_cases (a : Addresses) (mint : MintClient Ledger)
    (supraBalance nftId : UInt64) (trusteeAddress : String) (p : Pattern)
    (hw : w.allPositive = true) :
    (p.succeeds .emm = false ∧ ∃ e,
        setup a mint supraBalance nftId trusteeAddress (unfunded w) p
          = (.error e, unfunded w)) ∨
      (p.succeeds .emm = true ∧ p.succeeds .kay = true ∧ p.succeeds .tee = true ∧
        setup a mint supraBalance nftId trusteeAddress (unfunded w) p
          = (.ok (w.tokens a.toMetadata), funded w)) ∨
      (p.succeeds .emm = true ∧ ¬ (p.succeeds .kay = true ∧ p.succeeds .tee = true) ∧
        ∃ e l', setup a mint supraBalance nftId trusteeAddress (unfunded w) p = (.error e, l') ∧
          l'.escrow.somePositive = true ∧ l' ≠ funded w) := by
  obtain ⟨⟨hemm, hkay⟩, htee⟩ : ((0 < w.emm) ∧ 0 < w.kay) ∧ 0 < w.tee := by
    simpa [Balances.allPositive] using hw
  rw [setup_unfunded hw]
  unfold ChainClient.depositAll
  -- the deposits are made in order, and the first that fails ends the run
  rcases exec_deposit a mint p (unfunded w) "EMM" w.emm a.tokenOf_emm with
    ⟨hemm', hfirst⟩ | ⟨hemm', e, hfirst⟩
  · rw [SetupM.exec_bind_ok hfirst]
    -- from here on the escrow holds something, which the next run takes for a setup done
    have hin : 0 < ((unfunded w).move .emm w.emm).escrow.emm := by
      simpa [unfunded, move, Balances.set, Balances.get, Balances.zero] using hemm
    rcases exec_deposit a mint p ((unfunded w).move .emm w.emm) "KAY" w.kay a.tokenOf_kay with
      ⟨hkay', hsecond⟩ | ⟨hkay', e, hsecond⟩
    · rw [SetupM.exec_bind_ok hsecond]
      rcases exec_deposit a mint p (((unfunded w).move .emm w.emm).move .kay w.kay) "TEE" w.tee
        a.tokenOf_tee with ⟨htee', hthird⟩ | ⟨htee', e, hthird⟩
      · rw [SetupM.exec_bind_ok hthird]
        refine .inr (.inl ⟨hemm', hkay', htee', ?_⟩)
        rw [SetupM.exec_pure]
        simp [unfunded, funded, move, Balances.set, Balances.get, Balances.zero]
      · rw [SetupM.exec_bind_error hthird]
        refine .inr (.inr ⟨hemm', fun hboth => ?_, e, _, rfl, Balances.somePositive_of_emm hin,
          ne_funded_of_wallet (t := .tee) htee⟩)
        rw [htee'] at hboth
        exact Bool.false_ne_true hboth.2
    · rw [SetupM.exec_bind_error hsecond]
      refine .inr (.inr ⟨hemm', fun hboth => ?_, e, _, rfl, Balances.somePositive_of_emm hin,
        ne_funded_of_wallet (t := .kay) hkay⟩)
      rw [hkay'] at hboth
      exact Bool.false_ne_true hboth.1
  · rw [SetupM.exec_bind_error hfirst]
    exact .inl ⟨hemm', e, rfl⟩

/-- One more setup is run and shown. -/
theorem trace_setup {r : SetupRun} {rs : List SetupRun} {l' : Ledger}
    {result : Except SetupError (List TokenBalance)}
    (h : setup a r.mint r.supraBalance nftId trusteeAddress l r.pattern = (result, l')) :
    (setups a nftId trusteeAddress).trace (outcome a nftId trusteeAddress) l (r :: rs)
      = (result.isOk, l')
        :: (setups a nftId trusteeAddress).trace (outcome a nftId trusteeAddress) l' rs := by
  have hstep : (setups a nftId trusteeAddress).step l r = some l' :=
    congrArg (fun x : Except SetupError (List TokenBalance) × Ledger => some x.2) h
  rw [System.trace_cons _ _ hstep]
  unfold outcome
  rw [h]
  rfl

/-- From a funded escrow on, every setup returns without an error and changes nothing. -/
theorem outcome_of_somePositive (h : l.escrow.somePositive = true) (rs : List SetupRun) :
    ∀ o ∈ (setups a nftId trusteeAddress).trace (outcome a nftId trusteeAddress) l rs,
      o = (true, l) := by
  induction rs with
  | nil =>
      intro o ho
      cases ho
  | cons r rs ih =>
      intro o ho
      rw [trace_setup (setup_of_somePositive h)] at ho
      rcases List.mem_cons.mp ho with rfl | hrest
      · rfl
      · exact ih o hrest

/-- A setup that returns without an error has moved the whole wallet to the escrow, whatever
deposits failed before, if and only if no setup follows one that deposited EMM and failed at
KAY or TEE. -/
theorem setup_resumes_iff (hw : w.allPositive = true) (rs : List SetupRun) :
    (∀ o ∈ (setups a nftId trusteeAddress).trace (outcome a nftId trusteeAddress) (unfunded w) rs,
        o.1 = true → o.2 = funded w) ↔
      ∀ before r next after, rs = before ++ r :: next :: after →
        (∀ q ∈ before, q.pattern.succeeds .emm = false) → r.pattern.succeeds .emm = true →
        r.pattern.succeeds .kay = true ∧ r.pattern.succeeds .tee = true := by
  induction rs with
  | nil =>
      refine iff_of_true (fun o ho => by cases ho) fun before r next after hsplit => ?_
      simp at hsplit
  | cons r rs ih =>
      rcases setup_unfunded_cases a r.mint r.supraBalance nftId trusteeAddress r.pattern hw with
        ⟨hemm, e, hsetup⟩ | ⟨hemm, hkay, htee, hsetup⟩ | ⟨hemm, hlater, e, l', hsetup, hsome, hne⟩
      · -- nothing was deposited: the next setup starts over
        rw [trace_setup hsetup, List.forall_mem_cons, and_iff_right (by intro h; cases h), ih]
        constructor
        · intro h before q next after hsplit hbefore hq
          cases before with
          | nil =>
              obtain ⟨rfl, -⟩ := List.cons.inj hsplit
              rw [hemm] at hq
              cases hq
          | cons b before =>
              obtain ⟨rfl, hrest⟩ := List.cons.inj hsplit
              exact h before q next after hrest
                (fun x hx => hbefore x (List.mem_cons_of_mem _ hx)) hq
        · intro h before q next after hsplit hbefore hq
          refine h (r :: before) q next after (congrArg _ hsplit) ?_ hq
          exact List.forall_mem_cons.mpr ⟨hemm, hbefore⟩
      · -- everything was deposited: this setup and all later ones find it there
        rw [trace_setup hsetup, List.forall_mem_cons]
        have hsome : (funded w).escrow.somePositive = true := by
          simp only [Balances.allPositive, Bool.and_eq_true, decide_eq_true_eq] at hw
          exact Balances.somePositive_of_emm hw.1.1
        refine iff_of_true ⟨fun _ => rfl, fun o ho _ => ?_⟩ ?_
        · rw [outcome_of_somePositive hsome rs o ho]
        · intro before q next after hsplit hbefore hq
          cases before with
          | nil =>
              obtain ⟨rfl, -⟩ := List.cons.inj hsplit
              exact ⟨hkay, htee⟩
          | cons b before =>
              obtain ⟨rfl, -⟩ := List.cons.inj hsplit
              have hnone := hbefore r List.mem_cons_self
              rw [hemm] at hnone
              cases hnone
      · -- a part was deposited: the next setup, if there is one, takes it for the whole
        rw [trace_setup hsetup, List.forall_mem_cons, and_iff_right (by intro h; cases h)]
        cases rs with
        | nil =>
            refine iff_of_true (fun o ho => by cases ho) fun before q next after hsplit => ?_
            cases before with
            | nil => simp at hsplit
            | cons b before => simp at hsplit
        | cons next after =>
            refine iff_of_false (fun h => ?_) fun h => ?_
            · rw [trace_setup (setup_of_somePositive hsome), List.forall_mem_cons] at h
              exact hne (h.1 rfl)
            · exact hlater (h [] r next after rfl (fun q hq => by cases hq) hemm)

end

/-! ## Ten tokens in the wallet -/

def sampleAddresses : Addresses where
  emm := "0xe"
  kay := "0xf"
  tee := "0x10"
  nodup := by decide

def sampleWallet : Balances := ⟨300000, 300000, 400000⟩

/-- A setup in which the deposits of the given tokens fail, and which never mints. -/
def failing (tokens : List Token) : SetupRun where
  pattern t := if t ∈ tokens then .ok ⟨false, 0, "Out of gas"⟩ else .ok ⟨true, 12, "Executed"⟩
  mint :=
    { getNftMintState := fun _ _ => .ok (false, false)
      getPendingMintClaimableAt := fun _ _ => .ok none
      submitClaimMint := throw .aborted
      submitRequestMint := fun _ _ _ => throw .aborted
      readLine := throw .aborted
      now := fun _ => 0
      sleep := fun _ l => l
      cancellableSleep := fun _ => throw .aborted }
  supraBalance := 0

/-- A setup that fails at the first deposit is made up for by the next one. -/
theorem second_setup_funds : sampleWallet.allPositive = true ∧
    ∀ o ∈ (setups sampleAddresses 1 "0x1").trace (outcome sampleAddresses 1 "0x1")
        (unfunded sampleWallet) [failing [.emm], failing []],
      o.1 = true → o.2 = funded sampleWallet := by
  refine ⟨by decide, ?_⟩
  refine (setup_resumes_iff (by decide) _).mpr fun before r next after hsplit _ hemm => ?_
  rcases before with _ | ⟨b, _ | ⟨b', before⟩⟩
  · obtain ⟨rfl, -⟩ := List.cons.inj hsplit
    cases hemm
  · simp at hsplit
  · simp at hsplit

/-- A setup that fails at the second deposit is followed by one that reports a funded escrow. -/
theorem second_setup_strands_wallet :
    ¬ ∀ (a : Addresses) (nftId : UInt64) (trusteeAddress : String) (w : Balances)
        (rs : List SetupRun), w.allPositive = true →
      ∀ o ∈ (setups a nftId trusteeAddress).trace (outcome a nftId trusteeAddress) (unfunded w) rs,
        o.1 = true → o.2 = funded w := by
  intro h
  have hall := h sampleAddresses 1 "0x1" sampleWallet [failing [.kay], failing []] (by decide)
  revert hall
  decide +kernel

end Ledger

end Setup
