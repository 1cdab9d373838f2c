/-
# The reports of the setup

A setup with a file goes through its steps in one order, leaves out those that do not apply, and
stops at the first one that fails.  `triple_runSetupAfterKeystore` and `triple_runWithKeys` say
what such a run leaves of the files and of the report, step by step.  The report is complete: the
steps it lists are those that apply, up to the one it names as failed, and the keystore and
`config.json` are what it says (`report_accounts`).
-/
import DeadmktNode.SetupFlow

namespace Setup

variable {σ : Type}

/-! ## What the steps do to the files -/

/-- The files with another `config.json`. -/
def Disk.storeConfig (d : Disk) (config : Stored NodeConfig) : Disk :=
  { d with config := config }

section

variable {D : Disk → Prop} {α : Type}

/-- Talking to the chain does not touch the files. -/
theorem keeps_onChain (x : SetupM σ α) :
    Keeps (fun m : Machine σ => D m.disk) (onChain x) :=
  Triple.onPart (Triple.ends (fun _ => True) x) (fun _ _ => trivial) (fun _ _ _ h _ => h)
    fun _ _ _ h _ => h

/-- The signer of the client is no file. -/
theorem keeps_setSigner (crates : Crates) (client : SetupClient σ) (keys : KeyPair) :
    Keeps (fun m : Machine σ => D m.disk) (setSigner crates client keys) :=
  Keeps.modify fun _ h => h

/-- An answer changes nothing. -/
theorem keeps_prompt {I : Machine σ → Prop} (answer : Except SetupError α) :
    Keeps I (prompt answer) := by
  unfold prompt
  cases answer with
  | error e => exact Keeps.throw _
  | ok a => exact Keeps.pure a

/-- The files are read as they are. -/
theorem triple_disk {d : Disk} {f : Disk → MachineM σ α}
    {Q : α → Machine σ → Prop} {E : String → Machine σ → Prop}
    (h : Triple (fun m => m.disk = d) (f d) Q E) :
    Triple (fun m => m.disk = d) (disk >>= f) Q E := by
  intro m hm
  have hend := h m hm
  show Ends Q E (execOn (f m.disk) m)
  rwa [hm]

/-- A write leaves the file as it says, with an error unless it is done. -/
theorem triple_write (w : Write) (error : String) (store : Disk → Disk) (d : Disk) :
    Triple (fun m : Machine σ => m.disk = d) (write w error store)
      (fun _ m => w.error = none ∧ m.disk = store d)
      fun _ m => w.error ≠ none ∧ m.disk = store d := by
  unfold write
  refine Triple.bind (Q := fun _ m => m.disk = store d) ?_ fun _ => ?_
  · exact fun m hm => congrArg store hm
  · cases hw : w.error with
    | none => exact fun m hm => ⟨rfl, hm⟩
    | some e => exact fun m hm => ⟨nofun, hm⟩

end

/-! ## Keys -/

/-- The files with another keystore. -/
def Disk.storeKeystore (d : Disk) (keystore : Stored KeystoreFile) : Disk :=
  { d with keystore := keystore }

section

variable {d : Disk} (crates : Crates) (paths : Paths) (inputs : Inputs)
  (password : String)

/-- Saving leaves a whole keystore, or fails and leaves what was there or a broken file. -/
theorem triple_saveKeystore :
    Triple (fun m : Machine σ => m.disk = d) (saveKeystore crates inputs password)
      (fun _ m => ∃ file,
        crates.saveKeystore (inputs.generated crates) password inputs.seed = .ok file ∧
          m.disk = d.storeKeystore (.whole file))
      fun _ m => m.disk = d ∨ m.disk = d.storeKeystore .broken := by
  unfold saveKeystore
  cases hsave : crates.saveKeystore (inputs.generated crates) password inputs.seed with
  | error e => exact (Triple.throw _).pre fun m hm => .inl hm
  | ok file =>
      refine (triple_write inputs.keystoreWrite _ _ d).mono (fun _ h => h) (fun _ m hm => ?_)
        fun _ m hm => ?_
      · obtain ⟨hdone, hdisk⟩ := hm
        cases hwrite : inputs.keystoreWrite with
        | done => exact ⟨file, rfl, by rw [hdisk, hwrite]; rfl⟩
        | refused e => rw [hwrite] at hdone; cases hdone
        | cutShort e => rw [hwrite] at hdone; cases hdone
      · obtain ⟨hfailed, hdisk⟩ := hm
        cases hwrite : inputs.keystoreWrite with
        | done => rw [hwrite] at hfailed; exact absurd rfl hfailed
        | refused e => rw [hdisk, hwrite]; exact .inl rfl
        | cutShort e => rw [hdisk, hwrite]; exact .inr rfl

/-- New keys are saved where there was no keystore. -/
theorem triple_generateKeystore :
    Triple (fun m : Machine σ => m.disk = d)
      (generateKeystoreNoninteractive crates paths inputs password)
      (fun keys m => d.keystore.exists = false ∧ keys = inputs.generated crates ∧
        ∃ file, crates.saveKeystore (inputs.generated crates) password inputs.seed = .ok file ∧
          m.disk = d.storeKeystore (.whole file))
      fun _ m => m.disk = d ∨
        d.keystore.exists = false ∧ m.disk = d.storeKeystore .broken := by
  unfold generateKeystoreNoninteractive
  refine triple_disk (Triple.ite (fun hexists => ?_) fun hexists => ?_)
  · exact (Triple.throw _).pre fun m hm => .inl hm
  · have hnone : d.keystore.exists = false := by simpa using hexists
    refine Triple.bind ((triple_saveKeystore crates inputs password).mono (fun _ h => h)
      (fun _ _ h => h) fun _ _ h => h.imp id fun h => ⟨hnone, h⟩) fun _ => ?_
    exact (Triple.pure _).pre fun m hm => ⟨hnone, rfl, hm⟩

/-- The keys are those that the keystore opens with. -/
theorem triple_unlockKeystore :
    Triple (fun m : Machine σ => m.disk = d)
      (unlockExistingKeystore crates paths password)
      (fun keys m => crates.load d.keystore password = .ok keys ∧ m.disk = d)
      fun _ m => m.disk = d := by
  unfold unlockExistingKeystore
  refine triple_disk (Triple.ite (fun _ => ?_) fun _ => ?_)
  · exact fun _ hm => hm
  · cases hload : crates.load d.keystore password with
    | error e => exact fun _ hm => hm
    | ok keys => exact (Triple.pure keys).pre fun m hm => ⟨rfl, hm⟩

end

/-! ## What the steps report -/

/-- What a report says about the run itself. -/
def SetupResult.core (r : SetupResult) : SetupResult :=
  { r with payoutAddress := none, escrowBalances := none, gasBalanceSupra := none, warnings := [] }

/-- The files and what the report says so far. -/
def Reached (d : Disk) (c : SetupResult) (h : Host σ) : Prop :=
  h.machine.disk = d ∧ h.result.core = c

namespace SetupResult

/-- The report with one more step performed. -/
def perform (r : SetupResult) (step : String) : SetupResult :=
  { r with stepsPerformed := r.stepsPerformed ++ [step] }

/-- The report of a success. -/
def succeed (r : SetupResult) : SetupResult := { r with success := true }

/-- The report with one more step skipped. -/
def skip (r : SetupResult) (step : String) : SetupResult :=
  { r with stepsSkipped := r.stepsSkipped ++ [step] }

end SetupResult

section

variable {d : Disk} {c : SetupResult} {α : Type} {E : String × String → Host σ → Prop}

/-- A step that does not touch the files. -/
theorem triple_step {x : MachineM σ α}
    (hx : ∀ D : Disk → Prop, Keeps (fun m => D m.disk) x) (name : String) :
    Triple (Reached d c) (HostM.step name x) (fun _ => Reached d c)
      fun e h => e.1 = name ∧ Reached d c h := by
  refine Triple.onPart (hx fun d' => d' = d) (fun h hh => hh.1) (fun _ h m hh hm => ?_)
    fun _ h m hh hm => ?_
  · exact ⟨hm, hh.2⟩
  · exact ⟨rfl, hm, hh.2⟩

/-- A change of the report changes its core alike. -/
theorem triple_report {f g : SetupResult → SetupResult} (hf : ∀ r, (f r).core = g r.core) :
    Triple (Reached d c) (HostM.report f : HostM σ Unit) (fun _ => Reached d (g c)) E := by
  intro h hh
  exact ⟨hh.1, (hf h.result).trans (congrArg g hh.2)⟩

/-- A step that is reported is in the core. -/
theorem triple_performed (step : String) :
    Triple (Reached d c) (HostM.performed step : HostM σ Unit)
      (fun _ => Reached d (c.perform step)) E :=
  triple_report (g := fun c => c.perform step) fun _ => rfl

/-- So is one that is skipped. -/
theorem triple_skipped (step : String) :
    Triple (Reached d c) (HostM.skipped step : HostM σ Unit)
      (fun _ => Reached d (c.skip step)) E :=
  triple_report (g := fun c => c.skip step) fun _ => rfl

/-- What is reported beside the steps. -/
theorem triple_beside {f : SetupResult → SetupResult} (hf : ∀ r, (f r).core = r.core) :
    Triple (Reached d c) (HostM.report f : HostM σ Unit) (fun _ => Reached d c) E :=
  triple_report (g := id) hf

/-- Warnings are not in the core. -/
theorem triple_warn (warning : String) :
    Triple (Reached d c) (HostM.warn warning : HostM σ Unit) (fun _ => Reached d c) E :=
  triple_beside fun _ => rfl

/-- Neither is a call of the chain whose failure is passed over. -/
theorem triple_attempt (x : SetupM σ α) :
    Triple (Reached d c) (HostM.attempt x : HostM σ (Except SetupError α))
      (fun _ => Reached d c) E :=
  fun _ hh => hh

end

/-! ## The setup after the keystore -/

/-- Both ways to the token of the node. -/
def pastNft (found : Bool) (c : SetupResult) : SetupResult :=
  if found then c.skip "mint_nft" else c.perform "mint_nft"

/-- The token is known. -/
def SetupResult.withNft (r : SetupResult) (nftId : UInt64) : SetupResult :=
  { r with nftId := some nftId }

/-- The core once the NFT is there, found or minted. -/
def afterNft (found : Bool) (nftId : UInt64) (c : SetupResult) : SetupResult :=
  (pastNft found (c.perform "wait_for_funding")).withNft nftId

/-- The three ways past the escrow. -/
def afterEscrow (v : ValidatedSetupConfig) (c : SetupResult) : SetupResult :=
  if v.bootstrapOnly then c.skip "register_and_deposit"
  else if v.network = .testnet then
    (c.perform "register_and_deposit").perform "auto_mint_and_deposit"
  else c.perform "register_and_deposit"

section

variable {d : Disk} {c : SetupResult} (client : SetupClient σ) (v : ValidatedSetupConfig)

/-- The NFT is found or minted, or the step that failed is one of these two. -/
theorem triple_nftOrMint (address : String) (keys : KeyPair) :
    Triple (Reached d c) (nftOrMint client v address keys : HostM σ UInt64)
      (fun _ h => ∃ found, Reached d (pastNft found c) h)
      fun e h => (e.1 = "check_existing_nft" ∨ e.1 = "mint_nft") ∧ Reached d c h := by
  unfold nftOrMint
  refine Triple.bind (Q := fun _ => Reached d c) ?_ fun nft => ?_
  · exact (triple_step (fun _ => keeps_onChain _) _).mono (fun _ h => h) (fun _ _ h => h)
      fun _ _ h => ⟨.inl h.1, h.2⟩
  · cases nft with
    | some nftId =>
        refine Triple.bind (triple_skipped "mint_nft") fun _ => ?_
        exact (Triple.pure nftId).pre fun h hh => ⟨true, hh⟩
    | none =>
        refine Triple.bind (Q := fun _ => Reached d c) ?_ fun nftId => ?_
        · exact (triple_step (fun _ => keeps_onChain _) _).mono (fun _ h => h) (fun _ _ h => h)
            fun _ _ h => ⟨.inr h.1, h.2⟩
        · refine Triple.bind (triple_performed "mint_nft") fun _ => ?_
          exact (Triple.pure nftId).pre fun h hh => ⟨false, hh⟩

/-- The escrow is entered unless the node only bootstraps; on the test network it may fail after the
deposit. -/
theorem triple_enterEscrow (address : String) (nftId : UInt64) (funding : WalletBalance) :
    Triple (Reached d c) (enterEscrow client v address nftId funding : HostM σ Unit)
      (fun _ => Reached d (afterEscrow v c))
      fun e h => v.bootstrapOnly = false ∧
        (e.1 = "register_and_deposit" ∧ Reached d c h ∨
          e.1 = "auto_mint_and_deposit" ∧ v.network = .testnet ∧
            Reached d (c.perform "register_and_deposit") h) := by
  unfold enterEscrow afterEscrow
  refine Triple.ite (fun hboot => ?_) fun hboot => ?_
  · rw [if_pos hboot]
    exact triple_skipped _
  · rw [if_neg hboot]
    have hboot' : v.bootstrapOnly = false := by simpa using hboot
    refine Triple.bind (Q := fun _ => Reached d c) ?_ fun _ => ?_
    · exact (triple_step (fun _ => keeps_onChain _) _).mono (fun _ h => h) (fun _ _ h => h)
        fun _ _ h => ⟨hboot', .inl h⟩
    · refine Triple.bind (triple_performed _) fun _ => ?_
      refine Triple.ite (fun hnet => ?_) fun hnet => ?_
      · rw [if_pos hnet]
        refine Triple.bind (Q := fun _ => Reached d (c.perform "register_and_deposit")) ?_
          fun _ => triple_performed _
        exact (triple_step (fun _ => keeps_onChain _) _).mono (fun _ h => h) (fun _ _ h => h)
          fun _ _ h => ⟨hboot', .inr ⟨h.1, hnet, h.2⟩⟩
      · rw [if_neg hnet]
        exact triple_warn _

/-- Writing `config.json` leaves the new file, the old one, or one that is cut short. -/
theorem triple_writeConfig (inputs : Inputs) (error : String) (config : NodeConfig) :
    Triple (fun m : Machine σ => m.disk = d) (writeConfig inputs error config)
      (fun _ m => m.disk = d.storeConfig (.whole config))
      fun _ m => m.disk = d ∨ m.disk = d.storeConfig .broken := by
  refine (triple_write inputs.configWrite error _ d).mono (fun _ h => h) (fun _ m hm => ?_)
    fun _ m hm => ?_
  · obtain ⟨hdone, hdisk⟩ := hm
    cases hwrite : inputs.configWrite with
    | done => rw [hdisk, hwrite]; rfl
    | refused e => rw [hwrite] at hdone; cases hdone
    | cutShort e => rw [hwrite] at hdone; cases hdone
  · obtain ⟨hfailed, hdisk⟩ := hm
    cases hwrite : inputs.configWrite with
    | done => rw [hwrite] at hfailed; exact absurd rfl hfailed
    | refused e => rw [hdisk, hwrite]; exact .inl rfl
    | cutShort e => rw [hdisk, hwrite]; exact .inr rfl

/-- The same as a step of a setup. -/
theorem triple_writeConfigStep (inputs : Inputs) (config : NodeConfig) :
    Triple (Reached d c)
      (HostM.step "write_config" (writeConfig inputs "IO error: " config) : HostM σ Unit)
      (fun _ => Reached (d.storeConfig (.whole config)) c)
      fun e h => e.1 = "write_config" ∧ (Reached d c h ∨ Reached (d.storeConfig .broken) c h) := by
  refine Triple.onPart (triple_writeConfig inputs _ config) (fun h hh => hh.1)
    (fun _ h m hh hm => ⟨hm, hh.2⟩) fun _ h m hh hm => ⟨rfl, ?_⟩
  exact hm.imp (fun hm => ⟨hm, hh.2⟩) fun hm => ⟨hm, hh.2⟩

/-- No error comes from setting the signer. -/
theorem triple_setSigner (crates : Crates) (keys : KeyPair)
    {E : String × String → Host σ → Prop} :
    Triple (Reached d c) (HostM.step "set_signer" (setSigner crates client keys) :
      HostM σ Unit) (fun _ => Reached d c) E := by
  refine Triple.onPart (A := fun m => m.disk = d) (B := fun _ m => m.disk = d)
    (F := fun _ _ => False) (fun _ hm => hm) (fun _ hh => hh.1) (fun _ h m hh hm => ?_)
    fun _ _ _ _ hm => hm.elim
  exact ⟨hm, hh.2⟩

/-- The warning about an old `config.json` changes nothing. -/
theorem triple_warnOfOverwriting (warning : String) {E : String × String → Host σ → Prop} :
    Triple (Reached d c) (warnOfOverwriting warning : HostM σ Unit) (fun _ => Reached d c)
      E := by
  unfold warnOfOverwriting
  refine Triple.bind Triple.get fun h => Triple.pre ?_ fun _ hh => hh.2
  exact Triple.ite (fun _ => triple_warn warning) fun _ _ hh => hh

/-- Neither does the last look at the balance. -/
theorem triple_finalBalance (address : String) {E : String × String → Host σ → Prop} :
    Triple (Reached d c) (finalBalance client v address : HostM σ Unit)
      (fun _ => Reached d c) E := by
  unfold finalBalance
  refine Triple.ite (fun _ => ?_) fun _ _ hh => hh
  refine Triple.bind (triple_attempt _) fun answer => ?_
  cases answer with
  | ok b => exact triple_beside fun _ => rfl
  | error e => exact triple_warn _

/-- How the part after the keystore succeeds: with a new `config.json`. -/
def SucceededAfterKeystore (v : ValidatedSetupConfig) (address : String) (d : Disk)
    (c : SetupResult) (h : Host σ) : Prop :=
  ∃ found nftId,
    Reached (d.storeConfig (.whole (buildNodeConfigFromChain v nftId address)))
      ((afterEscrow v (afterNft found nftId c)).perform "write_config").succeed h

/-- How the part after the keystore fails: with the step and what was reached before it. -/
def FailedAfterKeystore (v : ValidatedSetupConfig) (d : Disk) (c : SetupResult)
    (step : String) (h : Host σ) : Prop :=
  step = "wait_for_funding" ∧ Reached d c h ∨
  (step = "check_existing_nft" ∨ step = "mint_nft") ∧ Reached d (c.perform "wait_for_funding") h ∨
  ∃ found nftId,
    v.bootstrapOnly = false ∧
      (step = "register_and_deposit" ∧ Reached d (afterNft found nftId c) h ∨
        step = "auto_mint_and_deposit" ∧ v.network = .testnet ∧
          Reached d ((afterNft found nftId c).perform "register_and_deposit") h) ∨
    step = "write_config" ∧
      (Reached d (afterEscrow v (afterNft found nftId c)) h ∨
        Reached (d.storeConfig .broken) (afterEscrow v (afterNft found nftId c)) h)

/-- **After the keystore.**  What a run leaves, whether it succeeds or fails. -/
theorem triple_runSetupAfterKeystore (crates : Crates) (paths : Paths) (inputs : Inputs)
    (keys : KeyPair) :
    Triple (Reached d c)
      (runSetupAfterKeystore crates client paths inputs v keys : HostM σ Unit)
      (fun _ h => SucceededAfterKeystore v (crates.deriveTrusteeAddress keys) d c h)
      fun e h => FailedAfterKeystore v d c e.1 h := by
  unfold runSetupAfterKeystore
  dsimp only
  refine Triple.bind (triple_warnOfOverwriting _) fun _ => ?_
  refine Triple.bind (Q := fun _ => Reached d c) ?_ fun _ => ?_
  · exact triple_setSigner client crates keys
  refine Triple.bind (Q := fun _ => Reached d c) ?_ fun funding => ?_
  · exact (triple_step (fun _ => keeps_onChain _) _).mono (fun _ h => h) (fun _ _ h => h)
      fun _ _ h => .inl h
  refine Triple.bind (triple_beside fun _ => rfl) fun _ => ?_
  refine Triple.bind (triple_performed _) fun _ => ?_
  refine Triple.bind ((triple_nftOrMint client v _ keys).mono (fun _ h => h) (fun _ _ h => h)
    fun _ _ h => .inr (.inl h)) fun nftId => Triple.of_exists fun found => ?_
  refine Triple.bind (triple_report (g := fun c => c.withNft nftId) fun _ => rfl) fun _ => ?_
  refine Triple.bind ((triple_enterEscrow client v _ nftId funding).mono (fun _ h => h)
    (fun _ _ h => h) fun _ _ h => .inr (.inr ⟨found, nftId, .inl h⟩)) fun _ => ?_
  refine Triple.bind ((triple_writeConfigStep inputs _).mono (fun _ h => h) (fun _ _ h => h)
    fun _ _ h => .inr (.inr ⟨found, nftId, .inr h⟩)) fun _ => ?_
  refine Triple.bind (triple_performed _) fun _ => ?_
  refine Triple.bind (triple_finalBalance client v _) fun _ => ?_
  exact (triple_report (g := SetupResult.succeed) fun _ => rfl).post
    fun _ h hh => ⟨found, nftId, hh⟩

end

/-! ## Reports that tell what happened -/

/-- The step that comes to the keys. -/
def keyStep : SetupMode → String
  | .fresh => "generate_keystore"
  | _ => "unlock_keystore"

/-- The steps of a setup with a file, in order. -/
def stepOrder (mode : SetupMode) : List String :=
  ["validate", keyStep mode, "wait_for_funding", "check_existing_nft", "mint_nft",
    "register_and_deposit", "auto_mint_and_deposit", "write_config"]

/-- Is the step one that the run of the report has to perform?  Looking for the token is not
listed as a step. -/
def applies (r : SetupResult) (step : String) : Bool :=
  if step = "check_existing_nft" then false
  else if step = "mint_nft" then decide ("mint_nft" ∉ r.stepsSkipped)
  else if step = "register_and_deposit" then decide (r.nodeRole ≠ "bootstrap")
  else if step = "auto_mint_and_deposit" then
    decide (r.nodeRole ≠ "bootstrap" ∧ r.network = "testnet")
  else true

/-- A report that tells exactly what was done: every step that applies, up to the one that
failed. -/
structure SetupResult.Tells (r : SetupResult) : Prop where
  success_iff : r.success = true ↔ r.step = none
  error_iff : r.error = none ↔ r.step = none
  step_mem : ∀ s, r.step = some s → s ∈ stepOrder r.mode
  performed : r.stepsPerformed
    = ((stepOrder r.mode).takeWhile fun s => r.step ≠ some s).filter (applies r)

/-- The report when the keys are there. -/
def keyed (v : ValidatedSetupConfig) (mode : SetupMode) (address : String) : SetupResult :=
  { (initResult v mode).core with
    trusteeAddress := some address, stepsPerformed := ["validate", keyStep mode] }

/-- What a report tells is told by its core. -/
theorem tells_of_core {r c : SetupResult} (hcore : r.core = c) (h : c.Tells) : r.Tells := by
  subst hcore
  exact ⟨h.1, h.2, h.3, h.4⟩

/-- Whether a failure is told truly depends on the core alone. -/
theorem tells_fail_of_core {r c : SetupResult} {step error : String} (hcore : r.core = c)
    (h : (c.fail step error).Tells) : (r.fail step error).Tells := by
  subst hcore
  exact ⟨h.1, h.2, h.3, h.4⟩

attribute [local simp] SetupResult.fail SetupResult.core SetupResult.freshInProgress
  SetupResult.perform SetupResult.skip SetupResult.withNft SetupResult.succeed initResult keyed
  keyStep stepOrder applies pastNft afterNft afterEscrow Network.text

section

variable {v : ValidatedSetupConfig} {mode : SetupMode} {address error : String} {found : Bool}
  {nftId : UInt64}

/-- A failure while the setup waits for gas. -/
theorem tells_at_funding :
    ((keyed v mode address).fail "wait_for_funding" error).Tells := by
  constructor <;> cases mode <;> simp

/-- A failure at the NFT. -/
theorem tells_at_nft {s : String} (hs : s = "check_existing_nft" ∨ s = "mint_nft") :
    (((keyed v mode address).perform "wait_for_funding").fail s error).Tells := by
  rcases hs with rfl | rfl <;> constructor <;> cases mode <;> simp

/-- A failure at the deposit. -/
theorem tells_at_register (hboot : v.bootstrapOnly = false) :
    ((afterNft found nftId (keyed v mode address)).fail "register_and_deposit" error).Tells := by
  constructor <;> cases found <;> cases mode <;> simp [hboot]

/-- A failure at the tokens of the test network. -/
theorem tells_at_autoMint (hboot : v.bootstrapOnly = false) :
    (((afterNft found nftId (keyed v mode address)).perform "register_and_deposit").fail
      "auto_mint_and_deposit" error).Tells := by
  constructor <;> cases found <;> cases mode <;> simp [hboot]

/-- A failure when `config.json` is written. -/
theorem tells_at_write :
    ((afterEscrow v (afterNft found nftId (keyed v mode address))).fail "write_config"
      error).Tells := by
  cases hboot : v.bootstrapOnly <;> cases hnet : v.network <;>
    constructor <;> cases found <;> cases mode <;> simp [hboot, hnet]

/-- A success. -/
theorem tells_success :
    ((afterEscrow v (afterNft found nftId (keyed v mode address))).perform
      "write_config").succeed.Tells := by
  cases hboot : v.bootstrapOnly <;> cases hnet : v.network <;>
    constructor <;> cases found <;> cases mode <;> simp [hboot, hnet]

/-- The keys are generated in a fresh setup only. -/
theorem generated_mem_perform {c : SetupResult} {s : String} (hs : s ≠ "generate_keystore") :
    "generate_keystore" ∈ (c.perform s).stepsPerformed ↔
      "generate_keystore" ∈ c.stepsPerformed := by
  simp [hs.symm]

/-- A keystore is reported exactly by a fresh setup. -/
theorem generated_mem_keyed :
    "generate_keystore" ∈ (keyed v mode address).stepsPerformed ↔ mode = .fresh := by
  cases mode <;> simp

/-- The NFT adds no report of a keystore. -/
theorem generated_mem_afterNft {c : SetupResult} :
    "generate_keystore" ∈ (afterNft found nftId c).stepsPerformed
      ↔ "generate_keystore" ∈ c.stepsPerformed := by
  cases found <;> simp

/-- The escrow adds none either. -/
theorem generated_mem_afterEscrow {c : SetupResult} :
    "generate_keystore" ∈ (afterEscrow v c).stepsPerformed
      ↔ "generate_keystore" ∈ c.stepsPerformed := by
  unfold afterEscrow
  split_ifs <;> simp

/-- A failure after the keystore is told by its report. -/
theorem FailedAfterKeystore.told {d : Disk} {s : String} {h : Host σ}
    (hfailed : FailedAfterKeystore v d (keyed v mode address) s h) (error : String) :
    (h.result.fail s error).Tells ∧
      ("generate_keystore" ∈ h.result.stepsPerformed ↔ mode = .fresh) ∧
      (h.machine.disk = d ∨ s = "write_config" ∧ h.machine.disk = d.storeConfig .broken) := by
  -- only the steps matter, and they are those of the core of the report
  have hcore : ∀ {c : SetupResult}, h.result.core = c → (c.fail s error).Tells →
      ("generate_keystore" ∈ c.stepsPerformed ↔ mode = .fresh) →
      (h.result.fail s error).Tells ∧
        ("generate_keystore" ∈ h.result.stepsPerformed ↔ mode = .fresh) := by
    rintro c rfl htells hmem
    exact ⟨tells_fail_of_core rfl htells, hmem⟩
  -- by the step that failed
  rcases hfailed with ⟨rfl, hdisk, hres⟩ | ⟨hs, hdisk, hres⟩ |
    ⟨found, nftId, ⟨hboot, hat⟩ | ⟨rfl, hat⟩⟩
  · obtain ⟨htells, hmem⟩ := hcore hres tells_at_funding generated_mem_keyed
    exact ⟨htells, hmem, .inl hdisk⟩
  · obtain ⟨htells, hmem⟩ := hcore hres (tells_at_nft hs)
      ((generated_mem_perform (by decide)).trans generated_mem_keyed)
    exact ⟨htells, hmem, .inl hdisk⟩
  · rcases hat with ⟨rfl, hdisk, hres⟩ | ⟨rfl, -, hdisk, hres⟩
    · obtain ⟨htells, hmem⟩ := hcore hres (tells_at_register hboot)
        (generated_mem_afterNft.trans generated_mem_keyed)
      exact ⟨htells, hmem, .inl hdisk⟩
    · obtain ⟨htells, hmem⟩ := hcore hres (tells_at_autoMint hboot)
        ((generated_mem_perform (by decide)).trans
          (generated_mem_afterNft.trans generated_mem_keyed))
      exact ⟨htells, hmem, .inl hdisk⟩
  · have hmem : "generate_keystore" ∈
        (afterEscrow v (afterNft found nftId (keyed v mode address))).stepsPerformed
          ↔ mode = .fresh :=
      generated_mem_afterEscrow.trans (generated_mem_afterNft.trans generated_mem_keyed)
    rcases hat with ⟨hdisk, hres⟩ | ⟨hdisk, hres⟩
    · obtain ⟨htells, hmem⟩ := hcore hres tells_at_write hmem
      exact ⟨htells, hmem, .inl hdisk⟩
    · obtain ⟨htells, hmem⟩ := hcore hres tells_at_write hmem
      exact ⟨htells, hmem, .inr ⟨rfl, hdisk⟩⟩

end

/-! ## Runs with a file -/

/-- What a run with a file says and leaves: its report tells what was done, a success means that
`config.json` is that of the report, and a failure that it is as before or cut short; there is a
new keystore exactly if the report says so. -/
structure Accounts (d : Disk) (h : Host σ) : Prop where
  tells : h.result.Tells
  setup : h.machine.disk.setup = d.setup
  config : (h.result.success = true ∧ ∃ config, h.machine.disk.config = .whole config ∧
      h.result.nftId = some config.nftId ∧
      h.result.trusteeAddress = some config.trusteeAddress) ∨
    (h.result.success = false ∧ (h.machine.disk.config = d.config ∨
      h.result.step = some "write_config" ∧ h.machine.disk.config = .broken))
  keystore : ("generate_keystore" ∈ h.result.stepsPerformed ∧ d.keystore.exists = false ∧
      ∃ file, h.machine.disk.keystore = .whole file) ∨
    ("generate_keystore" ∉ h.result.stepsPerformed ∧ (h.machine.disk.keystore = d.keystore ∨
      h.result.step = some "generate_keystore" ∧ d.keystore.exists = false ∧
        h.machine.disk.keystore = .broken))

/-- What a run is at its end. -/
theorem finish_cases {x : HostM σ Unit} {P : Host σ → Prop}
    {Q : Unit → Host σ → Prop} {E : String × String → Host σ → Prop}
    (hx : Triple P x Q E) {m : Machine σ} {r : SetupResult} (h : P ⟨m, r⟩) :
    Q () (HostM.finish x m r) ∨
      ∃ e h', E e h' ∧ HostM.finish x m r = { h' with result := h'.result.fail e.1 e.2 } := by
  have hend := hx _ h
  unfold HostM.finish
  revert hend
  rcases execOn x ⟨m, r⟩ with ⟨⟨step, e⟩ | ⟨⟩, h'⟩
  · exact fun hend => .inr ⟨(step, e), h', hend, rfl⟩
  · exact fun hend => .inl hend

/-- The keys have been brought: generated in a fresh setup, and else left alone. -/
def KeysBrought (mode : SetupMode) (d d' : Disk) : Prop :=
  d'.setup = d.setup ∧ d'.config = d.config ∧
    (mode = .fresh ∧ d.keystore.exists = false ∧ (∃ file, d'.keystore = .whole file) ∨
      mode ≠ .fresh ∧ d'.keystore = d.keystore)

section

variable {d d' : Disk} {mode : SetupMode} {v : ValidatedSetupConfig} {address : String}
  {h : Host σ}

/-- A setup that succeeds accounts for what it left. -/
theorem accounts_of_succeeded (hbrought : KeysBrought mode d d')
    (hend : SucceededAfterKeystore v address d' (keyed v mode address) h) : Accounts d h := by
  obtain ⟨hsetup, hconfig, hkeys⟩ := hbrought
  obtain ⟨found, nftId, hdisk, hcore⟩ := hend
  have hmem : "generate_keystore" ∈ h.result.stepsPerformed ↔ mode = .fresh := by
    have hsteps := congrArg SetupResult.stepsPerformed hcore
    change h.result.stepsPerformed = _ at hsteps
    rw [hsteps]
    exact (generated_mem_perform (by decide)).trans
      (generated_mem_afterEscrow.trans (generated_mem_afterNft.trans generated_mem_keyed))
  refine ⟨tells_of_core hcore tells_success, ?_,
    .inl ⟨?_, buildNodeConfigFromChain v nftId address, ?_, ?_, ?_⟩, ?_⟩
  · rw [hdisk]
    exact hsetup
  · exact congrArg SetupResult.success hcore
  · exact congrArg Disk.config hdisk
  · refine (congrArg SetupResult.nftId hcore).trans ?_
    unfold afterEscrow
    split_ifs <;> rfl
  · refine (congrArg SetupResult.trusteeAddress hcore).trans ?_
    unfold afterEscrow
    cases found <;> split_ifs <;> rfl
  · rw [hmem, hdisk]
    rcases hkeys with ⟨hfresh, hnone, hfile⟩ | ⟨hfresh, hsame⟩
    · exact .inl ⟨hfresh, hnone, hfile⟩
    · exact .inr ⟨hfresh, .inl hsame⟩

/-- So does one that fails after it had the keys. -/
theorem accounts_of_failed (hbrought : KeysBrought mode d d') {step : String}
    (hend : FailedAfterKeystore v d' (keyed v mode address) step h) (error : String) :
    Accounts d { h with result := h.result.fail step error } := by
  obtain ⟨hsetup, hconfig, hkeys⟩ := hbrought
  obtain ⟨htells, hmem, hdisk⟩ := hend.told error
  have hothers : h.machine.disk.setup = d.setup ∧ h.machine.disk.keystore = d'.keystore ∧
      (h.machine.disk.config = d.config ∨
        step = "write_config" ∧ h.machine.disk.config = .broken) := by
    rcases hdisk with hdisk | ⟨hstep, hdisk⟩
    · rw [hdisk]
      exact ⟨hsetup, rfl, .inl hconfig⟩
    · rw [hdisk]
      exact ⟨hsetup, rfl, .inr ⟨hstep, rfl⟩⟩
  refine ⟨htells, hothers.1, .inr ⟨rfl, ?_⟩, ?_⟩
  · exact hothers.2.2.imp id fun hbroken => ⟨congrArg some hbroken.1, hbroken.2⟩
  · show "generate_keystore" ∈ h.result.stepsPerformed ∧ _ ∨
      "generate_keystore" ∉ h.result.stepsPerformed ∧ _
    rw [hmem, hothers.2.1]
    rcases hkeys with ⟨hfresh, hnone, hfile⟩ | ⟨hfresh, hsame⟩
    · exact .inl ⟨hfresh, hnone, hfile⟩
    · exact .inr ⟨hfresh, .inl hsame⟩

end

/-- A file that is refused leaves everything as it is. -/
theorem accounts_of_refused (mode : SetupMode) {d : Disk} {h : Host σ}
    {network nodeRole error : String} (hdisk : h.machine.disk = d)
    (hresult : h.result = ((SetupResult.freshInProgress network nodeRole).fail "validate"
      error).withMode mode) : Accounts d h := by
  rw [← hdisk]
  refine ⟨?_, rfl, .inr ⟨by rw [hresult]; rfl, .inl rfl⟩, .inr ⟨?_, .inl rfl⟩⟩
  · rw [hresult]
    constructor <;> simp [SetupResult.withMode]
  · rw [hresult]
    exact List.not_mem_nil

/-- The report before the keys are there. -/
theorem accounts_of_keyStep {d : Disk} {mode : SetupMode} {v : ValidatedSetupConfig}
    {h : Host σ} (hdisk : h.machine.disk = d ∨ mode = .fresh ∧ d.keystore.exists = false ∧
      h.machine.disk = d.storeKeystore .broken)
    (hcore : h.result.core = (initResult v mode).core.perform "validate") (error : String) :
    Accounts d { h with result := h.result.fail (keyStep mode) error } := by
  have htells :
      (((initResult v mode).core.perform "validate").fail (keyStep mode) error).Tells := by
    constructor <;> cases mode <;> simp
  have hsteps : h.result.stepsPerformed = ["validate"] :=
    congrArg SetupResult.stepsPerformed hcore
  have hothers : h.machine.disk.setup = d.setup ∧ h.machine.disk.config = d.config ∧
      (h.machine.disk.keystore = d.keystore ∨ mode = .fresh ∧ d.keystore.exists = false ∧
        h.machine.disk.keystore = .broken) := by
    rcases hdisk with hdisk | ⟨hfresh, hnone, hdisk⟩
    · rw [hdisk]
      exact ⟨rfl, rfl, .inl rfl⟩
    · rw [hdisk]
      exact ⟨rfl, rfl, .inr ⟨hfresh, hnone, rfl⟩⟩
  refine ⟨tells_fail_of_core hcore htells, hothers.1, .inr ⟨rfl, .inl hothers.2.1⟩, .inr ⟨?_, ?_⟩⟩
  · show "generate_keystore" ∉ h.result.stepsPerformed
    rw [hsteps]
    decide
  · refine hothers.2.2.imp id fun h => ⟨?_, h.2⟩
    show some (keyStep mode) = some (keyStep .fresh)
    rw [h.1]

section

variable (crates : Crates) (client : SetupClient σ) (paths : Paths) (inputs : Inputs)

/-- A setup with a file, from the keys on that `bring` brings. -/
def runWithKeys (v : ValidatedSetupConfig) (mode : SetupMode) (bring : MachineM σ KeyPair) :
    HostM σ Unit := do
  HostM.performed "validate"
  let keys ← HostM.step (keyStep mode) bring
  HostM.report fun r => { r with trusteeAddress := some (crates.deriveTrusteeAddress keys) }
  HostM.performed (keyStep mode)
  runSetupAfterKeystore crates client paths inputs v keys

/-- **A setup with a file** fails with its keys, or brings them and goes on from there. -/
theorem triple_runWithKeys {d : Disk} (v : ValidatedSetupConfig) (mode : SetupMode)
    {bring : MachineM σ KeyPair} {B : KeyPair → Disk → Prop} {F : Disk → Prop}
    (hbring : Triple (fun m => m.disk = d) bring (fun keys m => B keys m.disk)
      fun _ m => F m.disk) :
    Triple (Reached d (initResult v mode).core)
      (runWithKeys crates client paths inputs v mode bring)
      (fun _ h => ∃ keys d', B keys d' ∧ SucceededAfterKeystore v
        (crates.deriveTrusteeAddress keys) d'
        (keyed v mode (crates.deriveTrusteeAddress keys)) h)
      fun e h =>
        (e.1 = keyStep mode ∧ F h.machine.disk ∧
          h.result.core = (initResult v mode).core.perform "validate") ∨
        ∃ keys d', B keys d' ∧ FailedAfterKeystore v d'
          (keyed v mode (crates.deriveTrusteeAddress keys)) e.1 h := by
  unfold runWithKeys
  refine Triple.bind (triple_performed _) fun _ => ?_
  refine Triple.bind (Q := fun keys h => ∃ d', B keys d' ∧
    Reached d' ((initResult v mode).core.perform "validate") h) ?_ fun keys => ?_
  · refine Triple.onPart hbring (fun h hh => hh.1) (fun keys h m hh hm => ?_) fun e h m hh hm => ?_
    · exact ⟨m.disk, hm, rfl, hh.2⟩
    · exact .inl ⟨rfl, hm, hh.2⟩
  refine Triple.of_exists fun d' => ?_
  intro h ⟨hB, hh⟩
  revert h
  refine Triple.bind (triple_report (g := fun c =>
    { c with trusteeAddress := some (crates.deriveTrusteeAddress keys) }) fun _ => rfl) fun _ => ?_
  refine Triple.bind (triple_performed _) fun _ => ?_
  exact (triple_runSetupAfterKeystore client v crates paths inputs keys).mono (fun _ h => h)
    (fun _ _ h => ⟨keys, d', hB, h⟩) fun _ _ h => .inr ⟨keys, d', hB, h⟩

/-- A setup with a file accounts for what it does, whatever brings its keys. -/
theorem accounts_runWithKeys (v : ValidatedSetupConfig) (mode : SetupMode)
    {bring : MachineM σ KeyPair} {m : Machine σ}
    (hbring : Triple (fun m' => m'.disk = m.disk) bring
      (fun _ m' => KeysBrought mode m.disk m'.disk) fun _ m' => m'.disk = m.disk ∨
        mode = .fresh ∧ m.disk.keystore.exists = false ∧ m'.disk = m.disk.storeKeystore .broken) :
    Accounts m.disk (HostM.finish (runWithKeys crates client paths inputs v mode bring) m
      (initResult v mode)) := by
  rcases finish_cases (triple_runWithKeys crates client paths inputs v mode
      (B := fun _ d' => KeysBrought mode m.disk d')
      (F := fun d' => d' = m.disk ∨ mode = .fresh ∧ m.disk.keystore.exists = false ∧
        d' = m.disk.storeKeystore .broken) hbring)
      (m := m) (r := initResult v mode) ⟨rfl, rfl⟩ with
    ⟨keys, d', hB, hend⟩ | ⟨e, h, ⟨hstep, hdisk, hcore⟩ | ⟨keys, d', hB, hend⟩, heq⟩
  · exact accounts_of_succeeded hB hend
  · rw [heq, hstep]
    exact accounts_of_keyStep hdisk hcore _
  · rw [heq]
    exact accounts_of_failed hB hend _

/-- A fresh setup accounts for what it left. -/
theorem accounts_fresh (cfg : SetupConfig) (m : Machine σ) :
    Accounts m.disk (runSetupNoninteractiveFresh crates client paths inputs cfg m) := by
  unfold runSetupNoninteractiveFresh
  cases validateForFreshSetup crates cfg with
  | error e => exact accounts_of_refused .fresh rfl rfl
  | ok result =>
      obtain ⟨v, password⟩ := result
      refine accounts_runWithKeys crates client paths inputs v .fresh
        ((triple_generateKeystore crates paths inputs password).mono (fun _ h => h)
          (fun keys m' hm => ?_) fun _ m' hm => hm.imp id fun hm => ⟨rfl, hm⟩)
      obtain ⟨hnone, -, file, -, hdisk⟩ := hm
      rw [hdisk]
      exact ⟨rfl, rfl, .inl ⟨rfl, hnone, file, rfl⟩⟩

/-- So does one with an existing keystore. -/
theorem accounts_llmAssisted (cfg : SetupConfig) (password : String) (m : Machine σ) :
    Accounts m.disk
      (runSetupNoninteractiveLlmAssisted crates client paths inputs cfg password m) := by
  unfold runSetupNoninteractiveLlmAssisted
  cases validateForLlmAssisted crates cfg with
  | error e => exact accounts_of_refused .configWithKeystore rfl rfl
  | ok v =>
      refine accounts_runWithKeys crates client paths inputs v .configWithKeystore
        ((triple_unlockKeystore crates paths password).mono (fun _ h => h)
          (fun keys m' hm => ?_) fun _ m' hm => .inl hm)
      rw [hm.2]
      exact ⟨rfl, rfl, .inr ⟨nofun, rfl⟩⟩

end

end Setup
