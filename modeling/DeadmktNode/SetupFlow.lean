/-
# The setup of a node

A node is set up by a wizard that asks, from a file `setup.json` without asking, or from a
keystore alone.  Every way brings three things together: the keystore, the token of the node on
chain and the `config.json` the node then runs with.  The chain client, the crates for keys and
the answers of the operator are inputs; what a run leaves behind are the state of the chain, the
files and, but for the wizard, a report.
-/
import DeadmktNode.FundingSetup
import DeadmktNode.KeystoreFile

namespace Setup

/-- The texts of the errors. -/
def SetupError.text : SetupError → String
  | .chainError message => "chain error: " ++ message
  | .userDeclined => "user declined"
  | .aborted => "wizard aborted"
  | .ioError message => "IO error: " ++ message

/-! ## The crates -/

/-- The crates for hashes and keystores, and the lower case of Unicode. -/
structure Crates extends KeystoreCrates where
  /-- `Sha3_256::digest` -/
  sha3_256 : Bytes → Bytes
  /-- `str::to_lowercase` -/
  toLowercase : String → String
  toLowercase_ascii : ∀ s, (∀ c ∈ s.toList, c.toNat < 128) →
    toLowercase s = String.ofList (s.toList.map Char.toLower)

/-! ## Configurations -/

/-- The networks of Supra. -/
inductive Network where
  | testnet
  | mainnet
deriving DecidableEq, Repr

namespace Network

/-- The name of a network. -/
def text : Network → String
  | .testnet => "testnet"
  | .mainnet => "mainnet"

/-- The contract of the network; that of the mainnet is not known yet. -/
def contractAddress : Network → String
  | .testnet => "0x79b2ad6fea72a9aed2ea4bb7ded31c2741d52d7777b92fbc83dd80a7862094a9"
  | .mainnet => ""

end Network

/-- The withdrawal rules as the operator writes them. -/
structure WithdrawalRules where
  holdingPeriodDays : UInt64
  rushedWithdrawalEnabled : Bool
deriving DecidableEq, Repr

/-- The contents of `setup.json`. -/
structure SetupConfig where
  network : String
  payoutAddress : String
  sponsorAddress : Option String
  nodeRole : String
  keystorePassword : Option String
  mintAmounts : Balances
  withdrawalRules : WithdrawalRules
deriving DecidableEq

/-- The bounds of the contract on the holding period. -/
def HoldingPeriod (days : ℕ) : Prop := 1 ≤ days ∧ days ≤ 367

instance (days : ℕ) : Decidable (HoldingPeriod days) := inferInstanceAs (Decidable (_ ∧ _))

/-- Withdrawal rules within the bounds of the contract. -/
abbrev ValidRules := {rules : WithdrawalRules // HoldingPeriod rules.holdingPeriodDays.toNat}

/-- A `setup.json` that passed the checks. -/
structure ValidatedSetupConfig where
  network : Network
  payoutAddress : String
  sponsorAddress : Option String
  bootstrapOnly : Bool
  withdrawalRules : ValidRules

/-- The profit taking of `config.json`. -/
structure ProfitConfig where
  baseCapital : HashMap String UInt64
  thresholdPct : UInt32
  transferMode : String
  transferModeValue : Option UInt64
deriving DecidableEq

/-- The withdrawal rules of `config.json`. -/
structure WithdrawalConfig where
  holdingPeriodDays : UInt32
  rushedWithdrawalEnabled : Bool
deriving DecidableEq, Repr

/-- The part of `config.json` that the setup takes from the operator and the chain. -/
structure NodeConfig where
  network : Network
  nftId : UInt64
  trusteeAddress : String
  payoutAddress : String
  profitTaking : ProfitConfig
  withdrawalRules : WithdrawalConfig
deriving DecidableEq

/-- What a node checks of its configuration. -/
def NodeConfig.validate (config : NodeConfig) : Except String Unit :=
  if config.withdrawalRules.holdingPeriodDays < 1 ∨
      config.withdrawalRules.holdingPeriodDays > 367 then
    .error "validation error: holding_period_days must be 1-367"
  else if config.profitTaking.transferMode ∉ ["all_excess", "fixed_amount", "percentage"] then
    .error ("validation error: invalid transfer_mode: " ++ config.profitTaking.transferMode)
  else if config.profitTaking.transferMode = "fixed_amount" ∧
      config.profitTaking.transferModeValue = none then
    .error "validation error: fixed_amount mode requires transfer_mode_value"
  else if config.profitTaking.thresholdPct > 0 ∧ config.profitTaking.baseCapital.entries = [] then
    .error ("validation error: base_capital must have at least one token when profit taking is " ++
      "enabled")
  else .ok ()

/-- Profit taking as every setup leaves it: switched off. -/
def noProfitTaking : ProfitConfig := ⟨∅, 0, "all_excess", none⟩

/-! ## Checks of `setup.json` -/

section

variable (crates : Crates)

/-- An address, in lower case and without white space around it. -/
def validateAddress (addr : String) : Except SetupError String :=
  let lower := crates.toLowercase (String.ofList (trimChars addr.toList))
  if !"0x".toList.isPrefixOf lower.toList then
    .error (.ioError "address must start with 0x")
  else if lower.utf8ByteSize < 10 then
    .error (.ioError "address too short (need at least 8 hex chars after 0x)")
  else if !(lower.toList.drop 2).all (fun c => digitVal c < 16) then
    .error (.ioError "address contains non-hex characters after 0x")
  else .ok lower

/-- A password of eight bytes or more. -/
def validatePassword (password : String) : Except SetupError Unit :=
  if password.utf8ByteSize < 8 then
    .error (.ioError "keystore_password must be at least 8 characters")
  else .ok ()

/-- A network by its name, in upper or lower case. -/
def validateNetwork (network : String) : Except SetupError Network :=
  match crates.toLowercase network with
  | "testnet" => .ok .testnet
  | "mainnet" => .ok .mainnet
  | other =>
      .error (.ioError ("invalid network '" ++ other ++ "': expected 'testnet' or 'mainnet'"))

/-- Is the node a bootstrap node? -/
def validateNodeRole (role : String) : Except SetupError Bool :=
  match crates.toLowercase role with
  | "trading" => .ok false
  | "bootstrap" => .ok true
  | other =>
      .error (.ioError ("invalid node_role '" ++ other ++ "': expected 'trading' or 'bootstrap'"))

/-- All three tokens have to be minted. -/
def validateMintAmounts (amounts : Balances) : Except SetupError Unit :=
  if amounts.emm = 0 ∨ amounts.kay = 0 ∨ amounts.tee = 0 then
    .error (.ioError "mint_amounts: all three (emm, kay, tee) must be > 0")
  else .ok ()

/-- Rules within the bounds of the contract. -/
def validateWithdrawalRules (rules : WithdrawalRules) : Except SetupError ValidRules :=
  if h : HoldingPeriod rules.holdingPeriodDays.toNat then .ok ⟨rules, h⟩
  else .error (.ioError ("withdrawal_rules.holding_period_days must be in 1..=367, got " ++
    toString rules.holdingPeriodDays.toNat))

/-- The checks of both kinds of setup. -/
def validateCommon (cfg : SetupConfig) : Except SetupError ValidatedSetupConfig := do
  let network ← validateNetwork crates cfg.network
  let payoutAddress ← validateAddress crates cfg.payoutAddress
  let bootstrapOnly ← validateNodeRole crates cfg.nodeRole
  let sponsorAddress ←
    match cfg.sponsorAddress with
    | none => .ok none
    | some s => if trimChars s.toList = [] then .ok none else (validateAddress crates s).map some
  validateMintAmounts cfg.mintAmounts
  let withdrawalRules ← validateWithdrawalRules cfg.withdrawalRules
  return ⟨network, payoutAddress, sponsorAddress, bootstrapOnly, withdrawalRules⟩

/-- For a new keystore the password is needed. -/
def validateForFreshSetup (cfg : SetupConfig) :
    Except SetupError (ValidatedSetupConfig × String) := do
  let v ← validateCommon crates cfg
  match cfg.keystorePassword with
  | none => .error (.ioError ("keystore_password is required for fresh setup (MR1a). For " ++
      "LLM-assisted (existing keystore) the password comes from an interactive prompt -- omit " ++
      "this field and the node will ask."))
  | some keystorePassword =>
      validatePassword keystorePassword
      return (v, keystorePassword)

/-- For an existing keystore a password is refused. -/
def validateForLlmAssisted (cfg : SetupConfig) : Except SetupError ValidatedSetupConfig :=
  if cfg.keystorePassword.isSome then
    .error (.ioError ("MR1b (LLM-assisted) rejects setup.json that contains keystore_password. " ++
      "The LLM-safe path requires the operator to type the password interactively. Remove the " ++
      "field from the config (or use MR1a fresh setup if you intentionally want " ++
      "password-on-disk)."))
  else validateCommon crates cfg

end

/-! ## Files -/

/-- How a write to a file ends: as it should, before the file is touched, or within it. -/
inductive Write where
  | done
  | refused (error : String)
  | cutShort (error : String)

namespace Write

/-- What a write leaves of a file. -/
def apply {α : Type} (w : Write) (contents : α) (old : Stored α) : Stored α :=
  match w with
  | .done => .whole contents
  | .refused _ => old
  | .cutShort _ => .broken

/-- The error of a write that did not succeed. -/
def error : Write → Option String
  | .done => none
  | .refused e => some e
  | .cutShort e => some e

end Write

/-- `setup.json`: its contents, or why they cannot be loaded; its permission bits; and whether
it is a JSON object. -/
structure SetupFile where
  contents : Except String SetupConfig
  mode : ℕ
  isObject : Bool

/-- The three files of a node. -/
structure Disk where
  keystore : Stored KeystoreFile
  config : Stored NodeConfig
  setup : SetupFile

/-- What a run of the node works on. -/
structure Machine (σ : Type) where
  chain : σ
  disk : Disk

/-! ## Keys -/

variable {σ : Type}

/-- The address on chain that belongs to the keys. -/
def Crates.deriveTrusteeAddress (crates : Crates) (keys : KeyPair) : String :=
  "0x" ++ crates.encode (crates.sha3_256 (keys.publicKey.toList ++ [0]))

/-- The addresses of the metadata of the three tokens. -/
def Crates.tokenMetadataAddresses (crates : Crates) (network : Network) : Metadata :=
  let contractBytes :=
    (crates.decode (String.ofList
      (trimStartHex network.contractAddress.toList))).toOption.getD []
  let metadata (seed : String) : String :=
    "0x" ++ crates.encode (crates.sha3_256 (contractBytes ++ seed.toUTF8.data.toList ++ [0xFE]))
  ⟨metadata "deadmkt_emm", metadata "deadmkt_kay", metadata "deadmkt_tee"⟩

/-! ## The chain -/

/-- What a wallet holds. -/
structure WalletBalance where
  supra : UInt64
  tokens : List TokenBalance

/-- The chain client of the setup as a whole. -/
structure SetupClient (σ : Type) extends ChainClient σ where
  getAllBalances : String → SetupM σ WalletBalance
  isTrustee : String → SetupM σ Bool
  getNftId : String → SetupM σ UInt64
  getMintFee : SetupM σ UInt64
  submitMint : Bytes → String → SetupM σ TxResultInfo
  submitRegister : UInt64 → UInt64 → Bool → SetupM σ TxResultInfo
  setSigner : KeyPair → String → σ → σ

namespace SetupClient

variable (client : SetupClient σ)

/-- Wait for SUPRA or for tokens.  There is no limit of the wait: it ends with the interrupt that
the operator gives after a number of polls. -/
def awaitSupra (address : String) : ℕ → SetupM σ UInt64
  | 0 => throw .aborted
  | polls + 1 => do
      let balance ← client.getAllBalances address
      if 0 < balance.supra then
        return balance.supra
      if !balance.tokens.isEmpty then
        return balance.supra
      client.cancellableSleep 5
      awaitSupra address polls

/-- Wait for SUPRA and for tokens. -/
def awaitTokens (address : String) : ℕ → SetupM σ WalletBalance
  | 0 => throw .aborted
  | polls + 1 => do
      let balance ← client.getAllBalances address
      if 0 < balance.supra ∧ balance.tokens.isEmpty = false then
        return balance
      client.cancellableSleep 5
      awaitTokens address polls

/-- On the mainnet the tokens have to be there as well. -/
def waitForFunding (address : String) (network : Network) (polls : ℕ) :
    SetupM σ WalletBalance := do
  let supraBalance ← client.awaitSupra address polls
  if network = .testnet then
    return ⟨supraBalance, []⟩
  client.awaitTokens address polls

/-- The token of the address, if it has one. -/
def checkExistingNft (address : String) : SetupM σ (Option UInt64) := do
  let isTrustee ← client.isTrustee address
  if !isTrustee then
    return none
  let nftId ← client.getNftId address
  return some nftId

/-- Mint the token of the node, if the user agrees to the fee. -/
def mintNftPair (accepted : Except SetupError Bool) (pubkey : Bytes)
    (sponsor trusteeAddress : String) : SetupM σ UInt64 := do
  let _mintFee ← client.getMintFee
  let accepted ← MonadExcept.ofExcept accepted
  if !accepted then
    throw .userDeclined
  let result ← client.submitMint pubkey sponsor
  if !result.success then
    throw (.chainError result.vmStatus)
  client.getNftId trusteeAddress

/-- Deposit tokens; a deposit that was included but failed is passed over. -/
def depositTokens : List TokenBalance → SetupM σ Unit
  | [] => return
  | token :: tokens => do
      let _result ← client.submitDeposit token.metadataAddress token.amount
      depositTokens tokens

/-- Register the trader, if this was not done before, and deposit what the wallet holds. -/
def registerAndDeposit (nftId : UInt64) (withdrawal : WithdrawalConfig)
    (funding : WalletBalance) : SetupM σ Unit := do
  let reg ← client.submitRegister nftId withdrawal.holdingPeriodDays.toUInt64
    withdrawal.rushedWithdrawalEnabled
  if reg.success ∨ statusContains reg.vmStatus "ALREADY_REGISTERED" ∨
      statusContains reg.vmStatus "E_ALREADY_REGISTERED" then
    client.depositTokens funding.tokens
  else
    throw (.chainError reg.vmStatus)

/-- The client of a run that answers every question with "y". -/
def silent : SetupClient σ := { client with readLine := pure "y" }

end SetupClient

/-! ## Steps on the machine -/

/-- A part of a run on the machine; its errors are texts. -/
abbrev MachineM (σ α : Type) := ExceptT String (StateM (Machine σ)) α

/-- What a run of the program is given: the secret key that it would generate with what is needed
to encrypt it, how many polls the operator waits for funding, what is typed at the prompt for the
password, how the writes of files end, and the error that a `setup.json` gives that was cut
short. -/
structure Inputs where
  secretKey : Vector UInt8 32
  seed : Seed
  polls : ℕ
  typedPassword : Except String String
  keystoreWrite : Write
  configWrite : Write
  setupWrite : Write
  setupNotJson : String

/-- The keys that a run would generate. -/
def Inputs.generated (inputs : Inputs) (crates : Crates) : KeyPair :=
  crates.keyPair inputs.secretKey

/-- The paths of the files, as they stand in texts. -/
structure Paths where
  keystore : String
  config : String
  setup : String

/-- A part of the setup that talks to the chain. -/
def onChain {α : Type} (x : SetupM σ α) : MachineM σ α :=
  onPart Machine.chain (fun chain m => { m with chain := chain }) SetupError.text x

/-- The files as they are now. -/
def disk : MachineM σ (Disk) := do
  return (← get).disk

/-- Write a file; an error of the write comes after what it did to the file. -/
def write (w : Write) (error : String) (store : Disk → Disk) : MachineM σ Unit := do
  modify fun m => { m with disk := store m.disk }
  match w.error with
  | none => return
  | some e => throw (error ++ e)

/-- Write `config.json`. -/
def writeConfig (inputs : Inputs) (error : String) (config : NodeConfig) : MachineM σ Unit :=
  write inputs.configWrite error fun d =>
    { d with config := inputs.configWrite.apply config d.config }

/-- Save new keys, over what the file holds. -/
def saveKeystore (crates : Crates) (inputs : Inputs) (password : String) :
    MachineM σ Unit :=
  match crates.saveKeystore (inputs.generated crates) password inputs.seed with
  | .error e => throw ("keystore error: " ++ e.text)
  | .ok file =>
      write inputs.keystoreWrite "keystore error: IO error: " fun d =>
        { d with keystore := inputs.keystoreWrite.apply file d.keystore }

/-- New keys, only where there is no keystore. -/
def generateKeystoreNoninteractive (crates : Crates) (paths : Paths) (inputs : Inputs)
    (password : String) : MachineM σ KeyPair := do
  let d ← disk
  if d.keystore.exists then
    throw ("IO error: keystore already exists at " ++ paths.keystore ++ " -- MR1a is " ++
      "fresh-setup only; for LLM-assisted (existing keystore) flow see MR1b, for restore see MR1c")
  else
    saveKeystore crates inputs password
    return inputs.generated crates

/-- The keys of an existing keystore. -/
def unlockExistingKeystore (crates : Crates) (paths : Paths) (password : String) :
    MachineM σ KeyPair := do
  let d ← disk
  if !d.keystore.exists then
    throw ("IO error: no keystore at " ++ paths.keystore ++ " -- MR1b expects an existing " ++
      "keystore (use MR1a fresh setup if you have no keystore yet)")
  else
    match crates.load d.keystore password with
    | .ok keys => return keys
    | .error e => throw ("keystore error: " ++ e.text)

/-! ## The report -/

/-- The ways of setting a node up. -/
inductive SetupMode where
  | fresh
  | configWithKeystore
  | restore
deriving DecidableEq, Repr

/-- The report of a setup. -/
structure SetupResult where
  success : Bool
  mode : SetupMode
  nftId : Option UInt64
  trusteeAddress : Option String
  payoutAddress : Option String
  network : String
  nodeRole : String
  escrowBalances : Option Balances
  gasBalanceSupra : Option UInt64
  stepsPerformed : List String
  stepsSkipped : List String
  warnings : List String
  error : Option String
  step : Option String
deriving DecidableEq

namespace SetupResult

/-- The report of a fresh setup that begins. -/
def freshInProgress (network nodeRole : String) : SetupResult :=
  ⟨false, .fresh, none, none, none, network, nodeRole, none, none, [], [], [], none, none⟩

/-- The report of a setup that fails at a step. -/
def fail (r : SetupResult) (step error : String) : SetupResult :=
  { r with success := false, step := some step, error := some error }

/-- The report of another mode. -/
def withMode (r : SetupResult) (mode : SetupMode) : SetupResult := { r with mode := mode }

end SetupResult

/-- The report of a setup whose file was read. -/
def initResult (v : ValidatedSetupConfig) (mode : SetupMode) : SetupResult :=
  { SetupResult.freshInProgress v.network.text (if v.bootstrapOnly then "bootstrap" else "trading")
    with mode := mode, payoutAddress := some v.payoutAddress }

/-- The machine and the report on it so far. -/
structure Host (σ : Type) where
  machine : Machine σ
  result : SetupResult

/-- A part of a run that reports; its errors name the step that failed. -/
abbrev HostM (σ α : Type) := ExceptT (String × String) (StateM (Host σ)) α

namespace HostM

/-- One step of the setup. -/
def step {α : Type} (name : String) (x : MachineM σ α) : HostM σ α :=
  onPart Host.machine (fun m h => { h with machine := m }) (fun e => (name, e)) x

/-- An attempt on the chain, which the run survives. -/
def attempt {α : Type} (x : SetupM σ α) : HostM σ (Except SetupError α) := do
  let h ← get
  let (answer, chain) := x.exec h.machine.chain
  set { h with machine := { h.machine with chain := chain } }
  return answer

/-- Change the report. -/
def report (f : SetupResult → SetupResult) : HostM σ Unit :=
  modify fun h => { h with result := f h.result }

/-- Report a step that was performed. -/
def performed (step : String) : HostM σ Unit :=
  report fun r => { r with stepsPerformed := r.stepsPerformed ++ [step] }

/-- Report a step that was skipped. -/
def skipped (step : String) : HostM σ Unit :=
  report fun r => { r with stepsSkipped := r.stepsSkipped ++ [step] }

/-- Report a warning. -/
def warn (warning : String) : HostM σ Unit :=
  report fun r => { r with warnings := r.warnings ++ [warning] }

/-- A run from a report on: the machine and the report at its end. -/
def finish (x : HostM σ Unit) (m : Machine σ) (r : SetupResult) : Host σ :=
  match execOn x ⟨m, r⟩ with
  | (.ok (), h) => h
  | (.error (step, e), h) => { h with result := h.result.fail step e }

end HostM

open HostM

/-! ## Setup with a file -/

/-- `config.json` from what the operator asked for and the chain confirmed. -/
def buildNodeConfigFromChain (v : ValidatedSetupConfig) (nftId : UInt64)
    (trusteeAddress : String) : NodeConfig where
  network := v.network
  nftId := nftId
  trusteeAddress := trusteeAddress
  payoutAddress := v.payoutAddress
  profitTaking := noProfitTaking
  withdrawalRules :=
    ⟨v.withdrawalRules.1.holdingPeriodDays.toUInt32, v.withdrawalRules.1.rushedWithdrawalEnabled⟩

/-- The token of the node: the one it has, or a new one. -/
def nftOrMint (client : SetupClient σ) (v : ValidatedSetupConfig) (address : String)
    (keys : KeyPair) : HostM σ UInt64 := do
  match ← step "check_existing_nft" (onChain (client.checkExistingNft address)) with
  | some nftId =>
      skipped "mint_nft"
      return nftId
  | none =>
      let sponsor := v.sponsorAddress.getD address
      let nftId ← step "mint_nft"
        (onChain (client.mintNftPair (.ok true) keys.publicKey.toList sponsor address))
      performed "mint_nft"
      return nftId

/-- Registration, deposit and minting of a trading node. -/
def enterEscrow (client : SetupClient σ) (v : ValidatedSetupConfig) (address : String)
    (nftId : UInt64) (funding : WalletBalance) : HostM σ Unit := do
  if v.bootstrapOnly then
    skipped "register_and_deposit"
  else
    let withdrawal : WithdrawalConfig :=
      ⟨v.withdrawalRules.1.holdingPeriodDays.toUInt32, v.withdrawalRules.1.rushedWithdrawalEnabled⟩
    step "register_and_deposit" (onChain (client.registerAndDeposit nftId withdrawal funding))
    performed "register_and_deposit"
    if v.network = .testnet then
      let _tokens ← step "auto_mint_and_deposit"
        (onChain (client.silent.autoMintAndDeposit funding.supra nftId address))
      performed "auto_mint_and_deposit"
    else
      warn ("Mainnet: token funding/deposit must be done manually (MR1a/b do not auto-mint on " ++
        "mainnet).")

/-- A `config.json` that is there is going to be overwritten. -/
def warnOfOverwriting (warning : String) : HostM σ Unit := do
  if (← get).machine.disk.config.exists then
    warn warning

/-- Hand the keys to the client, which signs with them from now on. -/
def setSigner (crates : Crates) (client : SetupClient σ) (keys : KeyPair) :
    MachineM σ Unit :=
  modify fun m =>
    { m with chain := client.setSigner keys (crates.deriveTrusteeAddress keys) m.chain }

/-- The gas that is left in the end; if it cannot be read, a warning. -/
def finalBalance (client : SetupClient σ) (v : ValidatedSetupConfig) (address : String) :
    HostM σ Unit := do
  if v.bootstrapOnly = false then
    match ← attempt (client.getAllBalances address) with
    | .ok b => report fun r => { r with gasBalanceSupra := some b.supra }
    | .error e => warn ("final balance fetch failed: " ++ e.text)

/-- The part that a fresh setup and one with a keystore share. -/
def runSetupAfterKeystore (crates : Crates) (client : SetupClient σ) (paths : Paths)
    (inputs : Inputs) (v : ValidatedSetupConfig) (keys : KeyPair) : HostM σ Unit := do
  let address := crates.deriveTrusteeAddress keys
  warnOfOverwriting
    ("config.json already exists at " ++ paths.config ++ " -- it will be overwritten")
  step "set_signer" (setSigner crates client keys)
  let funding ← step "wait_for_funding"
    (onChain (client.waitForFunding address v.network inputs.polls))
  report fun r => { r with gasBalanceSupra := some funding.supra }
  performed "wait_for_funding"
  let nftId ← nftOrMint client v address keys
  report fun r => { r with nftId := some nftId }
  enterEscrow client v address nftId funding
  step "write_config" (writeConfig inputs "IO error: " (buildNodeConfigFromChain v nftId address))
  performed "write_config"
  finalBalance client v address
  report fun r => { r with success := true }

/-- A setup that generates the keystore, with the password of the file. -/
def runSetupNoninteractiveFresh (crates : Crates) (client : SetupClient σ) (paths : Paths)
    (inputs : Inputs) (cfg : SetupConfig) (m : Machine σ) : Host σ :=
  match validateForFreshSetup crates cfg with
  | .error e =>
      ⟨m, (SetupResult.freshInProgress cfg.network cfg.nodeRole).fail "validate" e.text⟩
  | .ok (v, password) =>
      finish (do
        performed "validate"
        let keys ← step "generate_keystore"
          (generateKeystoreNoninteractive crates paths inputs password)
        report fun r => { r with trusteeAddress := some (crates.deriveTrusteeAddress keys) }
        performed "generate_keystore"
        runSetupAfterKeystore crates client paths inputs v keys)
        m (initResult v .fresh)

/-- A setup with the existing keystore, unlocked with the password that was typed. -/
def runSetupNoninteractiveLlmAssisted (crates : Crates) (client : SetupClient σ)
    (paths : Paths) (inputs : Inputs) (cfg : SetupConfig) (keystorePassword : String)
    (m : Machine σ) : Host σ :=
  match validateForLlmAssisted crates cfg with
  | .error e =>
      ⟨m, ((SetupResult.freshInProgress cfg.network cfg.nodeRole).fail "validate"
        e.text).withMode .configWithKeystore⟩
  | .ok v =>
      finish (do
        performed "validate"
        let keys ← step "unlock_keystore" (unlockExistingKeystore crates paths keystorePassword)
        report fun r => { r with trusteeAddress := some (crates.deriveTrusteeAddress keys) }
        performed "unlock_keystore"
        runSetupAfterKeystore crates client paths inputs v keys)
        m (initResult v .configWithKeystore)

/-! ## Restoring from a keystore -/

/-- The balances in the escrow, in the order of the tokens, up to the first one that cannot be
read. -/
def escrowSnapshot (client : SetupClient σ) (nftId : UInt64) :
    List (Token × String × String) → Balances → HostM σ Balances
  | [], balances => return balances
  | (token, symbol, metadata) :: rest, balances => do
      match client.getEscrowBalance (← get).machine.chain nftId metadata with
      | .ok balance => escrowSnapshot client nftId rest (balances.set balance token)
      | .error e =>
          warn ("get_escrow_balance(" ++ symbol ++ ") failed: " ++ e.text ++
            " -- restore continues without escrow snapshot")
          return balances

/-- Warn of an escrow without any of the tokens. -/
def warnOfEmptyEscrow (balances : Balances) : HostM σ Unit := do
  if !balances.somePositive then
    warn ("escrow is empty -- if the NFT was previously trading this likely means tokens were " ++
      "withdrawn or the heartbeat lapsed. Trading will start with no inventory; request a mint " ++
      "via your strategy or `deadmkt-node deposit`.")

/-- What a restored node is configured with: the defaults, and its own address for payouts. -/
def restoredSetupConfig (network : Network) (payoutAddress : String) : ValidatedSetupConfig where
  network := network
  payoutAddress := payoutAddress
  sponsorAddress := none
  bootstrapOnly := false
  withdrawalRules := ⟨⟨90, true⟩, by decide⟩

/-- Restoring with the token that the chain knows. -/
def restoreWithNft (crates : Crates) (client : SetupClient σ) (paths : Paths)
    (inputs : Inputs) (network : Network) (address : String) (nftId : UInt64) :
    HostM σ Unit := do
  report fun r => { r with payoutAddress := some address }
  warn ("DMKT14: payout address is no longer stored on-chain. Defaulted payout_address to the " ++
    "trustee's own address; edit config.json if you want exit/profit SUPRA sent elsewhere.")
  report fun r => { r with nftId := some nftId }
  performed "check_existing_nft"
  let metadata := crates.tokenMetadataAddresses network
  let balances ← escrowSnapshot client nftId
    [(.emm, "EMM", metadata.emm), (.kay, "KAY", metadata.kay), (.tee, "TEE", metadata.tee)] .zero
  report fun r => { r with escrowBalances := some balances }
  performed "read_escrow"
  warnOfEmptyEscrow balances
  warnOfOverwriting ("config.json already exists at " ++ paths.config ++
    " -- it will be overwritten with the restored snapshot")
  step "write_config" (writeConfig inputs "IO error: "
    (buildNodeConfigFromChain (restoredSetupConfig network address) nftId address))
  performed "write_config"
  report fun r => { r with success := true }

/-- Restoring with the keys of the keystore. -/
def restoreWithKeys (crates : Crates) (client : SetupClient σ) (paths : Paths)
    (inputs : Inputs) (network : Network) (keys : KeyPair) : HostM σ Unit := do
  let address := crates.deriveTrusteeAddress keys
  report fun r => { r with trusteeAddress := some address }
  performed "unlock_keystore"
  step "set_signer" (setSigner crates client keys)
  match ← step "check_existing_nft" (onChain (client.checkExistingNft address)) with
  | none =>
      throw ("check_existing_nft", "no NFT on-chain for this keystore -- a restore needs an " ++
        "already-minted NFT. Use MR1a fresh setup with a setup.json to mint a new NFT.")
  | some nftId => restoreWithNft crates client paths inputs network address nftId

/-- A setup from the keystore and what the chain knows about its address. -/
def runSetupNoninteractiveRestore (crates : Crates) (client : SetupClient σ) (paths : Paths)
    (inputs : Inputs) (keystorePassword : String) (network : Network) (m : Machine σ) :
    Host σ :=
  finish (do
    let keys ← step "unlock_keystore" (unlockExistingKeystore crates paths keystorePassword)
    restoreWithKeys crates client paths inputs network keys)
    m ((SetupResult.freshInProgress network.text "trading").withMode .restore)

/-! ## The commands -/

/-- The report of a run that fails before its setup. -/
def failedBefore (mode : SetupMode) (step error : String) : SetupResult :=
  { SetupResult.freshInProgress "" "" with mode := mode, step := some step, error := some error }

/-- `chmod` in text. -/
def octal (mode : ℕ) : String := "0o" ++ String.ofList (Nat.toDigits 8 mode)

/-- Take the password out of `setup.json`. -/
def scrubPasswordFromSetupFile (paths : Paths) (inputs : Inputs) (cfg : SetupConfig) :
    MachineM σ Unit := do
  let d ← disk
  if !d.setup.isObject then
    throw ("IO error: " ++ paths.setup ++ " is not a JSON object")
  else
    write inputs.setupWrite ("IO error: write scrubbed " ++ paths.setup ++ ": ") fun d =>
      let contents :=
        match inputs.setupWrite with
        | .done => .ok { cfg with keystorePassword := none }
        | .refused _ => d.setup.contents
        | .cutShort _ => .error inputs.setupNotJson
      { d with setup := { d.setup with contents := contents } }

/-- The end of `--config`: a password that was used is taken out of the file. -/
def scrubAfter (paths : Paths) (inputs : Inputs) (cfg : SetupConfig) (h : Host σ) :
    Host σ :=
  if h.result.success ∧ cfg.keystorePassword.isSome then
    match execOn (scrubPasswordFromSetupFile paths inputs cfg) h.machine with
    | (.ok (), m) => ⟨m, { h.result with
        stepsPerformed := h.result.stepsPerformed ++ ["scrub_password_from_config"] }⟩
    | (.error e, m) => ⟨m, { h.result with
        warnings := h.result.warnings ++ ["failed to scrub keystore_password from " ++
          paths.setup ++ ": " ++ e ++ " -- delete the file manually or chmod 600 it"] }⟩
  else h

/-- `deadmkt-node --config setup.json`: with a keystore its password is typed, without one it
comes from the file. -/
def runNoninteractiveSetup (crates : Crates) (client : SetupClient σ) (paths : Paths)
    (inputs : Inputs) (m : Machine σ) : Host σ :=
  let modeForFailure : SetupMode :=
    if m.disk.keystore.exists then .configWithKeystore else .fresh
  match m.disk.setup.contents with
  | .error e => ⟨m, failedBefore modeForFailure "load_config" e⟩
  | .ok cfg =>
      if cfg.keystorePassword.isSome ∧ m.disk.setup.mode ≠ 0o600 then
        ⟨m, failedBefore modeForFailure "enforce_config_permissions"
          ("IO error: " ++ paths.setup ++ " contains keystore_password but permissions are " ++
            octal m.disk.setup.mode ++ " (must be 0o600). Run: chmod 600 " ++ paths.setup)⟩
      else if m.disk.keystore.exists then
        if cfg.keystorePassword.isSome then
          ⟨m, failedBefore .configWithKeystore "validate_for_llm_assisted"
            ("setup.json contains keystore_password but a keystore already exists at the data " ++
              "dir. MR1b (LLM-assisted) refuses password-in-config for the existing-keystore " ++
              "path -- the operator types the password interactively. Remove keystore_password " ++
              "from setup.json.")⟩
        else
          match inputs.typedPassword with
          | .error e => ⟨m, failedBefore .configWithKeystore "prompt_password" e⟩
          | .ok password =>
              scrubAfter paths inputs cfg
                (runSetupNoninteractiveLlmAssisted crates client paths inputs cfg password m)
      else
        scrubAfter paths inputs cfg (runSetupNoninteractiveFresh crates client paths inputs cfg m)

/-- Something of the node is missing. -/
def isFirstBoot (d : Disk) : Bool := !d.config.exists || !d.keystore.exists

/-- `deadmkt-node`: with a keystore alone the configuration is restored; with both the node
trades, and with no keystore it asks for a setup. -/
def runNode (crates : Crates) (client : SetupClient σ) (paths : Paths) (inputs : Inputs)
    (network : Network) (m : Machine σ) : Option (Host σ) :=
  if m.disk.keystore.exists ∧ m.disk.config.exists = false then
    match inputs.typedPassword with
    | .error e => some ⟨m, failedBefore .restore "prompt_password" e⟩
    | .ok password =>
        some (runSetupNoninteractiveRestore crates client paths inputs password network m)
  else none

/-! ## The wizard -/

/-- What the operator answers to the wizard, or why there is no answer.  The prompts ask again
until the answer is valid. -/
structure Answers where
  start : Except SetupError Unit
  payout : Except SetupError String
  bootstrapOnly : Except SetupError Bool
  password : Except SetupError String
  newPassword : Except SetupError String
  sponsor : Except SetupError String
  proceed : Except SetupError Bool
  withdrawal : Except SetupError
    {w : WithdrawalConfig // HoldingPeriod w.holdingPeriodDays.toNat}

/-- A question to the operator. -/
def prompt {α : Type} (answer : Except SetupError α) : MachineM σ α :=
  match answer with
  | .ok a => pure a
  | .error e => throw e.text

/-- A password without the white space around it. -/
def trimmed (password : String) : String := String.ofList (trimChars password.toList)

/-- The keys of the keystore, if there is one and the typed password unlocks it. -/
def wizardUnlock (crates : Crates) (answers : Answers) :
    MachineM σ (Option KeyPair) := do
  let d ← disk
  if d.keystore.exists then
    let password ← prompt answers.password
    return (crates.load d.keystore (trimmed password)).toOption
  else
    return none

/-- The keys of the keystore that is there; new ones if there is none, or if it cannot be
unlocked. -/
def wizardGenerateKeypair (crates : Crates) (inputs : Inputs) (answers : Answers) :
    MachineM σ KeyPair := do
  match ← wizardUnlock crates answers with
  | some keys => return keys
  | none =>
      let password ← prompt answers.newPassword
      saveKeystore crates inputs (trimmed password)
      return inputs.generated crates

/-- `config.json` of the wizard, which knows the testnet only. -/
def wizardConfig (nftId : UInt64) (address payout : String) (withdrawal : WithdrawalConfig) :
    NodeConfig :=
  ⟨.testnet, nftId, address, payout, noProfitTaking, withdrawal⟩

/-- The token of the node: the one it has, or a new one. -/
def wizardNft (client : SetupClient σ) (answers : Answers) (address : String) (keys : KeyPair) :
    MachineM σ UInt64 := do
  match ← onChain (client.checkExistingNft address) with
  | some nftId => return nftId
  | none =>
      let sponsor ← prompt answers.sponsor
      onChain (client.mintNftPair answers.proceed keys.publicKey.toList sponsor address)

/-- Tokens for a trading node. -/
def wizardTokens (client : SetupClient σ) (bootstrapOnly : Bool) (supraBalance nftId : UInt64)
    (address : String) : MachineM σ Unit :=
  if bootstrapOnly then return
  else do
    let _tokens ← onChain (client.autoMintAndDeposit supraBalance nftId address)

/-- The part of the wizard that follows the keys. -/
def wizardAfterKeypair (crates : Crates) (client : SetupClient σ) (inputs : Inputs)
    (answers : Answers) (payout : String) (bootstrapOnly : Bool) (keys : KeyPair) :
    MachineM σ NodeConfig := do
  let address := crates.deriveTrusteeAddress keys
  setSigner crates client keys
  let funding ← onChain (client.waitForFunding address .testnet inputs.polls)
  let nftId ← wizardNft client answers address keys
  let withdrawal ← prompt answers.withdrawal
  -- a bootstrap node is registered as well
  onChain (client.registerAndDeposit nftId withdrawal.1 funding)
  wizardTokens client bootstrapOnly funding.supra nftId address
  let config := wizardConfig nftId address payout withdrawal.1
  writeConfig inputs "config error: IO error: " config
  return config

/-- The wizard. -/
def runWizard (crates : Crates) (client : SetupClient σ) (inputs : Inputs)
    (answers : Answers) : MachineM σ NodeConfig := do
  prompt answers.start
  let payout ← prompt answers.payout
  let bootstrapOnly ← prompt answers.bootstrapOnly
  let keys ← wizardGenerateKeypair crates inputs answers
  wizardAfterKeypair crates client inputs answers payout bootstrapOnly keys

/-- `deadmkt-node setup` -/
def runSetupCommand (crates : Crates) (client : SetupClient σ) (inputs : Inputs)
    (answers : Answers) (m : Machine σ) : Machine σ :=
  if isFirstBoot m.disk then (execOn (runWizard crates client inputs answers) m).2 else m

end Setup
