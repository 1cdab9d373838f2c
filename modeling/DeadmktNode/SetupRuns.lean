/-
# Setups of a node, one after another

An operator sets a node up with files, with the wizard and by restoring it, in any order and as
often as it takes, edits `setup.json` in between and removes `config.json`; the chain moves on.

* Whatever was run, a `config.json` passes the checks of the node and names the address of the
  keystore beside it (`config_matches_keystore`).
* A keystore stays what it is exactly as long as no wizard overwrites it, as it does when it
  cannot unlock it (`keystore_kept_iff`).
* With a keystore there, a `setup.json` with a password is refused and nothing happens, so a setup
  that failed after it generated the keystore is refused until the file is edited
  (`failed_setup_is_refused`).

Nobody removes `keystore.json` here; `config.json` may go, and the chain may change, at any time.
-/
import DeadmktNode.Runs
import DeadmktNode.SetupReports

namespace Setup

variable {σ : Type}

/-! ## The system -/

/-- What happens to a machine: runs of the program, and what others do in between. -/
inductive Invocation (σ : Type) where
  /-- `deadmkt-node --config setup.json` -/
  | config (inputs : Inputs)
  /-- `deadmkt-node` -/
  | run (inputs : Inputs) (network : Network)
  /-- `deadmkt-node setup` -/
  | setup (inputs : Inputs) (answers : Answers)
  | chain (chain : σ)
  | editSetup (setup : SetupFile)
  | removeConfig

/-- The program and the machine it runs on. -/
structure Program (σ : Type) where
  crates : Crates
  client : SetupClient σ
  paths : Paths

namespace Program

variable (p : Program σ)

/-- The report of a run, if it makes one. -/
def report (m : Machine σ) : Invocation σ → Option SetupResult
  | .config inputs => some (runNoninteractiveSetup p.crates p.client p.paths inputs m).result
  | .run inputs network => (runNode p.crates p.client p.paths inputs network m).map Host.result
  | _ => none

/-- The machine after a run or another event. -/
def after (m : Machine σ) : Invocation σ → Machine σ
  | .config inputs => (runNoninteractiveSetup p.crates p.client p.paths inputs m).machine
  | .run inputs network =>
      ((runNode p.crates p.client p.paths inputs network m).map Host.machine).getD m
  | .setup inputs answers => runSetupCommand p.crates p.client inputs answers m
  | .chain chain => { m with chain := chain }
  | .editSetup setup => { m with disk := { m.disk with setup := setup } }
  | .removeConfig => { m with disk := m.disk.storeConfig .absent }

/-- Everything that happens to a machine. -/
def system : System (Machine σ) (Invocation σ) where
  step m i := some (p.after m i)

end Program

/-- **What `--config` can do**: fail at once, with everything as it was; or run the setup with
the existing keystore, or the fresh one, and take the password out of the file. -/
theorem runNoninteractiveSetup_cases (crates : Crates) (client : SetupClient σ)
    (paths : Paths) (inputs : Inputs) (m : Machine σ) :
    (∃ mode step error, runNoninteractiveSetup crates client paths inputs m
        = ⟨m, failedBefore mode step error⟩) ∨
      (∃ cfg password, m.disk.setup.contents = .ok cfg ∧ m.disk.keystore.exists = true ∧
        cfg.keystorePassword = none ∧ runNoninteractiveSetup crates client paths inputs m
          = scrubAfter paths inputs cfg
            (runSetupNoninteractiveLlmAssisted crates client paths inputs cfg password m)) ∨
      ∃ cfg, m.disk.setup.contents = .ok cfg ∧ m.disk.keystore.exists = false ∧
        runNoninteractiveSetup crates client paths inputs m = scrubAfter paths inputs cfg
          (runSetupNoninteractiveFresh crates client paths inputs cfg m) := by
  unfold runNoninteractiveSetup
  dsimp only
  cases hcontents : m.disk.setup.contents with
  | error e => exact .inl ⟨_, _, _, rfl⟩
  | ok cfg =>
      dsimp only
      -- a password in a file that others can read
      by_cases hmode : cfg.keystorePassword.isSome ∧ m.disk.setup.mode ≠ 0o600
      · rw [if_pos hmode]
        exact .inl ⟨_, _, _, rfl⟩
      rw [if_neg hmode]
      by_cases hexists : m.disk.keystore.exists
      · rw [if_pos hexists]
        -- a password in the file for a keystore that is there already
        by_cases hpassword : cfg.keystorePassword.isSome
        · rw [if_pos hpassword]
          exact .inl ⟨_, _, _, rfl⟩
        · rw [if_neg hpassword]
          have hnone : cfg.keystorePassword = none := by simpa using hpassword
          cases inputs.typedPassword with
          | error e => exact .inl ⟨_, _, _, rfl⟩
          | ok password => exact .inr (.inl ⟨cfg, password, rfl, hexists, hnone, rfl⟩)
      · rw [if_neg hexists]
        have hnone : m.disk.keystore.exists = false := by simpa using hexists
        exact .inr (.inr ⟨cfg, rfl, hnone, rfl⟩)

/-! ## What the parts of a run keep

A property of the machine is kept by a run if its parts keep it. -/

section

variable {I : Machine σ → Prop} {α : Type}

/-- Whatever a run keeps holds at its end. -/
theorem keeps_finish {x : HostM σ Unit} (hx : Keeps (fun h => I h.machine) x)
    {m : Machine σ} (hm : I m) (r : SetupResult) : I (HostM.finish x m r).machine := by
  rcases finish_cases hx (m := m) (r := r) hm with h | ⟨e, h', h, heq⟩
  · exact h
  · rw [heq]
    exact h

/-- A step keeps what its program keeps. -/
theorem keeps_step {x : MachineM σ α} (hx : Keeps I x) (name : String) :
    Keeps (fun h : Host σ => I h.machine) (HostM.step name x) :=
  Triple.onPart hx (fun _ h => h) (fun _ _ _ _ h => h) fun _ _ _ _ h => h

variable (I) in
/-- A report changes no machine. -/
theorem keeps_report (f : SetupResult → SetupResult) :
    Keeps (fun h : Host σ => I h.machine) (HostM.report f) := Keeps.modify fun _ h => h

end

/-! ## `config.json` and the keystore -/

/-- The keystore of the machine opens with the keys. -/
def Opens (crates : Crates) (keys : KeyPair) (d : Disk) : Prop :=
  ∃ file password, d.keystore = .whole file ∧ crates.loadKeystore file password = .ok keys

/-- A `config.json` that is whole passes the checks and names the address of the keystore. -/
def ConfigMatches (crates : Crates) (d : Disk) : Prop :=
  ∀ config, d.config = .whole config → config.validate = .ok () ∧
    ∃ keys, Opens crates keys d ∧ config.trusteeAddress = crates.deriveTrusteeAddress keys

/-- A configuration without profit taking passes the checks if its holding period does. -/
theorem validate_of_holdingPeriod {config : NodeConfig}
    (hprofit : config.profitTaking = noProfitTaking)
    (hdays : HoldingPeriod config.withdrawalRules.holdingPeriodDays.toNat) :
    config.validate = .ok () := by
  unfold NodeConfig.validate
  rw [hprofit, if_neg ?_]
  · rfl
  · rintro (hlow | hhigh)
    · have hlt := UInt32.lt_iff_toNat_lt.mp hlow
      have hone : (1 : UInt32).toNat = 1 := rfl
      have hpos := hdays.1
      omega
    · have hlt := UInt32.lt_iff_toNat_lt.mp hhigh
      have hmax : (367 : UInt32).toNat = 367 := rfl
      have hle := hdays.2
      omega

/-- A configuration of a setup with a file passes the checks. -/
theorem validate_buildNodeConfig (v : ValidatedSetupConfig) (nftId : UInt64) (address : String) :
    (buildNodeConfigFromChain v nftId address).validate = .ok () := by
  apply validate_of_holdingPeriod rfl
  have hdays := v.withdrawalRules.2
  show HoldingPeriod (v.withdrawalRules.1.holdingPeriodDays.toUInt32).toNat
  have hle := hdays.2
  rwa [UInt64.toNat_toUInt32, Nat.mod_eq_of_lt (by omega)]

section

variable {crates : Crates} {d : Disk} {keys : KeyPair}

/-- A `config.json` that is cut short names nobody. -/
theorem ConfigMatches.broken : ConfigMatches crates (d.storeConfig .broken) := nofun

/-- Neither does one that is not there. -/
theorem ConfigMatches.absent : ConfigMatches crates (d.storeConfig .absent) := nofun

/-- One with the address of the keys that open the keystore matches. -/
theorem ConfigMatches.whole {config : NodeConfig} (hopens : Opens crates keys d)
    (hvalid : config.validate = .ok ())
    (haddress : config.trusteeAddress = crates.deriveTrusteeAddress keys) :
    ConfigMatches crates (d.storeConfig (.whole config)) := by
  intro config' hconfig
  obtain rfl : config = config' := Stored.whole.inj hconfig
  exact ⟨hvalid, keys, hopens, haddress⟩

/-- Without a keystore there is no whole `config.json`, so any keystore will do. -/
theorem ConfigMatches.storeKeystore (h : ConfigMatches crates d) (hnone : d.keystore.exists = false)
    (keystore : Stored KeystoreFile) : ConfigMatches crates (d.storeKeystore keystore) := by
  intro config hconfig
  obtain ⟨-, keys, ⟨file, password, hfile, -⟩, -⟩ := h config hconfig
  rw [hfile] at hnone
  cases hnone

/-- Only the keystore and `config.json` matter. -/
theorem ConfigMatches.congr {d' : Disk} (h : ConfigMatches crates d)
    (hkeystore : d'.keystore = d.keystore) (hconfig : d'.config = d.config) :
    ConfigMatches crates d' := by
  intro config hwhole
  obtain ⟨hvalid, keys, ⟨file, password, hfile, hload⟩, haddress⟩ := h config (hconfig ▸ hwhole)
  exact ⟨hvalid, keys, ⟨file, password, hkeystore.trans hfile, hload⟩, haddress⟩

/-- What can be loaded is a whole keystore that opens. -/
theorem opens_of_load {password : String} (h : crates.load d.keystore password = .ok keys) :
    Opens crates keys d := by
  unfold KeystoreCrates.load at h
  cases hfile : d.keystore with
  | absent => rw [hfile] at h; cases h
  | broken => rw [hfile] at h; cases h
  | whole file =>
      rw [hfile] at h
      exact ⟨file, password, hfile, h⟩

end

section

variable {p : Program σ} {d : Disk} (inputs : Inputs)

/-- **What a setup with a file leaves**: the files with the keys, and a `config.json` that is as
before, cut short, or that of the keys. -/
theorem disk_runWithKeys {D : Disk → Prop} {B : KeyPair → Disk → Prop} (mode : SetupMode)
    {v : ValidatedSetupConfig} {bring : MachineM σ KeyPair} {m : Machine σ}
    (hbring : Triple (fun m' => m'.disk = m.disk) bring (fun keys m' => B keys m'.disk)
      fun _ m' => D m'.disk)
    (hkept : ∀ keys d, B keys d → D d)
    (hbroken : ∀ keys d, B keys d → D (d.storeConfig .broken))
    (hwhole : ∀ keys d nftId, B keys d → D (d.storeConfig
      (.whole (buildNodeConfigFromChain v nftId (p.crates.deriveTrusteeAddress keys))))) :
    D (HostM.finish (runWithKeys p.crates p.client p.paths inputs v mode bring)
      m (initResult v mode)).machine.disk := by
  rcases finish_cases (triple_runWithKeys p.crates p.client p.paths inputs v mode
      (B := B) (F := D) hbring) (m := m) (r := initResult v mode) ⟨rfl, rfl⟩ with
    ⟨keys, d', hkeys, found, nftId, hdisk, -⟩ |
      ⟨e, h, ⟨-, hfailed, -⟩ | ⟨keys, d', hkeys, hend⟩, heq⟩
  · rw [hdisk]
    exact hwhole keys d' nftId hkeys
  · rw [heq]
    exact hfailed
  · rw [heq]
    show D h.machine.disk
    obtain ⟨-, -, hdisk | ⟨-, hdisk⟩⟩ := hend.told ""
    · rw [hdisk]
      exact hkept keys d' hkeys
    · rw [hdisk]
      exact hbroken keys d' hkeys

/-- A setup with a file leaves a match, if bringing the keys does. -/
theorem matches_runWithKeys (mode : SetupMode) {v : ValidatedSetupConfig}
    {bring : MachineM σ KeyPair} {m : Machine σ}
    (hbring : Triple (fun m' => m'.disk = m.disk) bring
      (fun keys m' => Opens p.crates keys m'.disk ∧ ConfigMatches p.crates m'.disk)
      fun _ m' => ConfigMatches p.crates m'.disk) :
    ConfigMatches p.crates (HostM.finish (runWithKeys p.crates p.client p.paths inputs v mode bring)
      m (initResult v mode)).machine.disk :=
  disk_runWithKeys (B := fun keys d' => Opens p.crates keys d' ∧ ConfigMatches p.crates d') inputs
    mode hbring (fun _ _ hd => hd.2) (fun _ _ _ => ConfigMatches.broken)
    fun _ _ nftId hd => ConfigMatches.whole hd.1 (validate_buildNodeConfig v nftId _) rfl

/-- Both kinds of setup with a file. -/
theorem matches_fresh (cfg : SetupConfig) {m : Machine σ}
    (hm : ConfigMatches p.crates m.disk) :
    ConfigMatches p.crates
      (runSetupNoninteractiveFresh p.crates p.client p.paths inputs cfg m).machine.disk := by
  unfold runSetupNoninteractiveFresh
  cases validateForFreshSetup p.crates cfg with
  | error e => exact hm
  | ok result =>
      obtain ⟨v, password⟩ := result
      refine matches_runWithKeys inputs .fresh
        ((triple_generateKeystore p.crates p.paths inputs password).mono (fun _ h => h)
          (fun keys m' hm' => ?_) fun _ m' hm' => ?_)
      · obtain ⟨hnone, rfl, file, hsave, hdisk⟩ := hm'
        rw [hdisk]
        exact ⟨⟨file, password, rfl, p.crates.loadKeystore_of_save hsave⟩, hm.storeKeystore hnone _⟩
      · rcases hm' with hdisk | ⟨hnone, hdisk⟩
        · rwa [hdisk]
        · rw [hdisk]
          exact hm.storeKeystore hnone _

/-- A setup with an existing keystore. -/
theorem matches_llmAssisted (cfg : SetupConfig) (password : String) {m : Machine σ}
    (hm : ConfigMatches p.crates m.disk) :
    ConfigMatches p.crates (runSetupNoninteractiveLlmAssisted p.crates p.client p.paths inputs cfg
      password m).machine.disk := by
  unfold runSetupNoninteractiveLlmAssisted
  cases validateForLlmAssisted p.crates cfg with
  | error e => exact hm
  | ok v =>
      refine matches_runWithKeys inputs .configWithKeystore
        ((triple_unlockKeystore p.crates p.paths password).mono (fun _ h => h)
          (fun keys m' hm' => ?_) fun _ m' hm' => ?_)
      · rw [hm'.2]
        exact ⟨opens_of_load hm'.1, hm⟩
      · rwa [hm']

/-- Taking the password out of `setup.json` touches nothing else. -/
theorem scrubAfter_disk (paths : Paths) (cfg : SetupConfig) (h : Host σ) :
    (scrubAfter paths inputs cfg h).machine.disk.keystore = h.machine.disk.keystore ∧
      (scrubAfter paths inputs cfg h).machine.disk.config = h.machine.disk.config := by
  have htriple : Triple (fun m : Machine σ => m.disk = h.machine.disk)
      (scrubPasswordFromSetupFile paths inputs cfg)
      (fun _ m => m.disk.keystore = h.machine.disk.keystore ∧
        m.disk.config = h.machine.disk.config)
      fun _ m => m.disk.keystore = h.machine.disk.keystore ∧
        m.disk.config = h.machine.disk.config := by
    unfold scrubPasswordFromSetupFile
    refine triple_disk (Triple.ite (fun _ => ?_) fun _ => ?_)
    · exact (Triple.throw _).pre fun m hm => by rw [hm]; exact ⟨rfl, rfl⟩
    · exact (triple_write inputs.setupWrite _ _ _).mono (fun _ h => h)
        (fun _ m hm => by rw [hm.2]; exact ⟨rfl, rfl⟩) fun _ m hm => by rw [hm.2]; exact ⟨rfl, rfl⟩
  have hend := htriple h.machine rfl
  unfold scrubAfter
  split_ifs
  · revert hend
    rcases execOn (scrubPasswordFromSetupFile paths inputs cfg) h.machine with ⟨_ | ⟨⟩, m⟩
    · exact id
    · exact id
  · exact ⟨rfl, rfl⟩

/-- Looking at the escrow changes no machine. -/
theorem keeps_escrowSnapshot {I : Machine σ → Prop} (client : SetupClient σ) (nftId : UInt64)
    (tokens : List (Token × String × String)) (balances : Balances) :
    Keeps (fun h : Host σ => I h.machine) (escrowSnapshot client nftId tokens balances) := by
  induction tokens generalizing balances with
  | nil => exact Keeps.pure balances
  | cons entry rest ih =>
      obtain ⟨token, symbol, metadata⟩ := entry
      unfold escrowSnapshot
      refine Keeps.of_get fun h => ?_
      cases client.getEscrowBalance h.machine.chain nftId metadata with
      | ok balance => exact ih _
      | error e => exact Keeps.bind (keeps_report I _) fun _ => Keeps.pure balances

/-- Restoring writes a `config.json` for the keys. -/
theorem triple_restoreWithNft {keys : KeyPair} (network : Network) (nftId : UInt64)
    (hd : ConfigMatches p.crates d) (hopens : Opens p.crates keys d) :
    Triple (fun h : Host σ => h.machine.disk = d)
      (restoreWithNft p.crates p.client p.paths inputs network
        (p.crates.deriveTrusteeAddress keys) nftId)
      (fun _ h => ConfigMatches p.crates h.machine.disk)
      fun _ h => ConfigMatches p.crates h.machine.disk := by
  have hfail : ∀ (_ : String × String) (h : Host σ), h.machine.disk = d →
      ConfigMatches p.crates h.machine.disk := by
    intro _ h hh
    rwa [hh]
  have hreport : ∀ f, Keeps (fun h : Host σ => h.machine.disk = d) (HostM.report f) :=
    keeps_report fun m => m.disk = d
  unfold restoreWithNft
  -- up to the write the steps only report and read
  refine Keeps.andThen (hreport _) hfail fun _ => ?_
  refine Keeps.andThen (hreport _) hfail fun _ => ?_
  refine Keeps.andThen (hreport _) hfail fun _ => ?_
  refine Keeps.andThen (hreport _) hfail fun _ => ?_
  refine Keeps.andThen (keeps_escrowSnapshot (I := fun m => m.disk = d) _ _ _ _) hfail
    fun balances => ?_
  refine Keeps.andThen (hreport _) hfail fun _ => ?_
  refine Keeps.andThen (hreport _) hfail fun _ => ?_
  refine Keeps.andThen (Keeps.ite (hreport _) (Keeps.pure _)) hfail fun _ => ?_
  refine Keeps.andThen (Keeps.of_get fun _ => Keeps.ite (hreport _) (Keeps.pure _)) hfail
    fun _ => ?_
  refine Triple.bind (Q := fun _ h => ConfigMatches p.crates h.machine.disk) ?_ fun _ => ?_
  -- the write replaces the file, leaves it or breaks it
  · refine Triple.onPart (triple_writeConfig inputs _ _) (fun _ h => h) (fun _ h m _ hm => ?_)
      fun _ h m _ hm => ?_
    · show ConfigMatches p.crates m.disk
      rw [hm]
      exact ConfigMatches.whole hopens (validate_buildNodeConfig _ _ _) rfl
    · show ConfigMatches p.crates m.disk
      rcases hm with hm | hm
      · rwa [hm]
      · rw [hm]
        exact ConfigMatches.broken
  · have hkeeps : ∀ f, Keeps (fun h : Host σ => ConfigMatches p.crates h.machine.disk)
        (HostM.report f) := keeps_report fun m => ConfigMatches p.crates m.disk
    exact Keeps.bind (hkeeps _) fun _ => hkeeps _

/-- A restored `config.json` is for the keys that the keystore opens with. -/
theorem matches_restore (password : String) (network : Network) {m : Machine σ}
    (hm : ConfigMatches p.crates m.disk) :
    ConfigMatches p.crates (runSetupNoninteractiveRestore p.crates p.client p.paths inputs password
      network m).machine.disk := by
  have hfail : ∀ (_ : String × String) (h : Host σ), h.machine.disk = m.disk →
      ConfigMatches p.crates h.machine.disk := by
    intro _ h hh
    rwa [hh]
  -- the keys come from the keystore, so the address written is theirs
  have htriple : Triple (fun h : Host σ => h.machine.disk = m.disk)
      (HostM.step "unlock_keystore" (unlockExistingKeystore p.crates p.paths password) >>=
        restoreWithKeys p.crates p.client p.paths inputs network)
      (fun _ h => ConfigMatches p.crates h.machine.disk)
      fun _ h => ConfigMatches p.crates h.machine.disk := by
    refine Triple.bind (Q := fun keys h => Opens p.crates keys m.disk ∧ h.machine.disk = m.disk)
      ?_ fun keys => ?_
    · refine Triple.onPart (triple_unlockKeystore p.crates p.paths password) (fun _ h => h)
        (fun keys h m' _ hm' => ?_) fun e h m' hh hm' => ?_
      · exact ⟨opens_of_load hm'.1, hm'.2⟩
      · exact hfail ("", e) ⟨m', h.result⟩ hm'
    · intro h ⟨hopens, hh⟩
      revert h
      unfold restoreWithKeys
      refine Keeps.andThen (keeps_report (fun m' => m'.disk = m.disk) _) hfail fun _ => ?_
      refine Keeps.andThen (keeps_report (fun m' => m'.disk = m.disk) _) hfail fun _ => ?_
      refine Keeps.andThen (keeps_step (I := fun m' => m'.disk = m.disk)
        (keeps_setSigner (D := fun d => d = m.disk) _ _ _) _) hfail fun _ => ?_
      refine Keeps.andThen (keeps_step (I := fun m' => m'.disk = m.disk)
        (keeps_onChain (D := fun d => d = m.disk) _) _) hfail fun nft => ?_
      cases nft with
      | none => exact (Triple.throw _).pre fun h hh => hfail ("", "") h hh
      | some nftId => exact triple_restoreWithNft inputs network nftId hm hopens
  rcases finish_cases htriple (m := m)
      (r := (SetupResult.freshInProgress network.text "trading").withMode .restore) rfl with
    h | ⟨e, h', h, heq⟩
  · exact h
  · have hrun : runSetupNoninteractiveRestore p.crates p.client p.paths inputs password network m
        = { h' with result := h'.result.fail e.1 e.2 } := heq
    rw [hrun]
    exact h

/-- The wizard looks at the keystore with the password that is typed, if there is one. -/
theorem triple_wizardUnlock (crates : Crates) (answers : Answers) :
    Triple (fun m : Machine σ => m.disk = d) (wizardUnlock crates answers)
      (fun unlocked m => m.disk = d ∧ (d.keystore.exists = false ∧ unlocked = none ∨
        ∃ old, answers.password = .ok old ∧
          unlocked = (crates.load d.keystore (trimmed old)).toOption))
      fun _ m => m.disk = d ∧ ∃ e, answers.password = .error e := by
  unfold wizardUnlock
  refine triple_disk (Triple.ite (fun _ => ?_) fun hnone => ?_)
  · unfold prompt
    cases answers.password with
    | error e => exact (Triple.throw _).pre fun m hm => ⟨hm, e, rfl⟩
    | ok old => exact (Triple.pure _).pre fun m hm => ⟨hm, .inr ⟨old, rfl, rfl⟩⟩
  · exact (Triple.pure _).pre fun m hm => ⟨hm, .inl ⟨by simpa using hnone, rfl⟩⟩

/-- The keys of the wizard open the keystore that is there after it came to them. -/
theorem triple_wizardGenerateKeypair (answers : Answers) :
    Triple (fun m : Machine σ => m.disk = d)
      (wizardGenerateKeypair p.crates inputs answers)
      (fun keys m => Opens p.crates keys m.disk ∧ ∃ keystore, m.disk = d.storeKeystore keystore)
      fun _ m => ∃ keystore, m.disk = d.storeKeystore keystore := by
  unfold wizardGenerateKeypair
  refine Triple.bind ((triple_wizardUnlock p.crates answers).mono (fun _ h => h)
    (fun _ _ h => h) fun _ m hm => ⟨d.keystore, hm.1⟩) fun unlocked => ?_
  · cases unlocked with
    | some keys =>
        refine (Triple.pure _).pre fun m hm => ?_
        -- a keystore that opens is kept
        obtain ⟨hdisk, ⟨-, hnone⟩ | ⟨old, -, hload⟩⟩ := hm
        · cases hnone
        · refine ⟨?_, d.keystore, hdisk⟩
          rw [hdisk]
          cases hresult : p.crates.load d.keystore (trimmed old) with
          | error e => rw [hresult] at hload; cases hload
          | ok keys' =>
              rw [hresult] at hload
              obtain rfl := Option.some.inj hload
              exact opens_of_load hresult
    | none =>
        refine Triple.bind (Q := fun _ m => m.disk = d) ?_ fun password => ?_
        · unfold prompt
          cases answers.newPassword with
          | error e => exact (Triple.throw _).pre fun m hm => ⟨d.keystore, hm.1⟩
          | ok password => exact (Triple.pure _).pre fun m hm => hm.1
        · refine Triple.bind ((triple_saveKeystore p.crates inputs _).mono (fun _ h => h)
            (fun _ _ h => h) fun _ m hm => ?_) fun _ => ?_
          -- a write that fails may leave a broken file
          · rcases hm with hm | hm
            · exact ⟨d.keystore, hm⟩
            · exact ⟨.broken, hm⟩
          · refine (Triple.pure _).pre fun m hm => ?_
            obtain ⟨file, hsave, hdisk⟩ := hm
            rw [hdisk]
            exact ⟨⟨file, _, rfl, p.crates.loadKeystore_of_save hsave⟩, .whole file, rfl⟩

/-- The NFT of the wizard is a matter of the chain. -/
theorem keeps_wizardNft {I : Machine σ → Prop} {client : SetupClient σ}
    (hchain : ∀ {α : Type} (x : SetupM σ α), Keeps I (onChain x)) (answers : Answers)
    (address : String) (keys : KeyPair) : Keeps I (wizardNft client answers address keys) := by
  unfold wizardNft
  refine Keeps.bind (hchain _) fun nft => ?_
  cases nft with
  | some nftId => exact Keeps.pure nftId
  | none =>
      exact Keeps.bind (keeps_prompt _) fun _ => hchain _

/-- So are its tokens. -/
theorem keeps_wizardTokens {I : Machine σ → Prop} {client : SetupClient σ}
    (hchain : ∀ {α : Type} (x : SetupM σ α), Keeps I (onChain x)) (bootstrapOnly : Bool)
    (supraBalance nftId : UInt64) (address : String) :
    Keeps I (wizardTokens client bootstrapOnly supraBalance nftId address) := by
  unfold wizardTokens
  exact Keeps.ite (Keeps.pure _) (Keeps.bind (hchain _) fun _ => Keeps.pure _)

/-- After the keys, the wizard writes a `config.json` for them. -/
theorem triple_wizardAfterKeypair (answers : Answers) (payout : String) (bootstrapOnly : Bool)
    {keys : KeyPair} (hd : ConfigMatches p.crates d) (hopens : Opens p.crates keys d) :
    Triple (fun m : Machine σ => m.disk = d)
      (wizardAfterKeypair p.crates p.client inputs answers payout bootstrapOnly keys)
      (fun _ m => ConfigMatches p.crates m.disk) fun _ m => ConfigMatches p.crates m.disk := by
  have hfail : ∀ (_ : String) (m : Machine σ), m.disk = d →
      ConfigMatches p.crates m.disk := by
    intro _ m hm
    rwa [hm]
  have hchain : ∀ {α : Type} (x : SetupM σ α),
      Keeps (fun m : Machine σ => m.disk = d) (onChain x) :=
    fun x => keeps_onChain (D := fun d' => d' = d) x
  unfold wizardAfterKeypair
  dsimp only
  refine Keeps.andThen (keeps_setSigner (D := fun d' => d' = d) _ _ _) hfail fun _ => ?_
  refine Keeps.andThen (hchain _) hfail fun funding => ?_
  refine Keeps.andThen (keeps_wizardNft hchain answers _ keys) hfail fun nftId => ?_
  refine Triple.bind (Q := fun withdrawal m => m.disk = d) ?_ fun withdrawal => ?_
  · exact (keeps_prompt (I := fun m => m.disk = d) _).mono (fun _ h => h) (fun _ _ h => h) hfail
  refine Keeps.andThen (hchain _) hfail fun _ => ?_
  refine Keeps.andThen (keeps_wizardTokens hchain _ _ _ _) hfail fun _ => ?_
  refine Triple.bind (Q := fun _ (m : Machine σ) => ConfigMatches p.crates m.disk) ?_
    fun _ => ?_
  · refine (triple_writeConfig inputs _ _).mono (fun _ h => h) (fun _ m hm => ?_) fun _ m hm => ?_
    · rw [hm]
      exact ConfigMatches.whole hopens (validate_of_holdingPeriod rfl withdrawal.2) rfl
    · rcases hm with hm | hm
      · rwa [hm]
      · rw [hm]
        exact ConfigMatches.broken
  · exact fun _ hm => hm

/-- **The wizard** leaves a `config.json` that matches, as a setup with a file does. -/
theorem matches_setup (answers : Answers) {m : Machine σ}
    (hm : ConfigMatches p.crates m.disk) :
    ConfigMatches p.crates (runSetupCommand p.crates p.client inputs answers m).disk := by
  unfold runSetupCommand
  split_ifs with hfirst
  · -- a `config.json` that is whole has its keystore beside it, and the wizard does not start
    have hnotWhole : ∀ config, m.disk.config ≠ .whole config := by
      intro config hwhole
      obtain ⟨-, keys, ⟨file, password, hfile, -⟩, -⟩ := hm config hwhole
      rw [isFirstBoot, hwhole, hfile] at hfirst
      cases hfirst
    have hstore : ∀ keystore, ConfigMatches p.crates (m.disk.storeKeystore keystore) :=
      fun keystore config hwhole => absurd hwhole (hnotWhole config)
    have hprompt : ∀ {α : Type} (answer : Except SetupError α),
        Keeps (fun m' : Machine σ => m'.disk = m.disk) (prompt answer) :=
      fun answer => keeps_prompt answer
    have hfail : ∀ (_ : String) (m' : Machine σ), m'.disk = m.disk →
        ConfigMatches p.crates m'.disk := by
      intro _ m' hm'
      rwa [hm']
    have hwizard : Triple (fun m' : Machine σ => m'.disk = m.disk)
        (runWizard p.crates p.client inputs answers)
        (fun _ m' => ConfigMatches p.crates m'.disk)
        fun _ m' => ConfigMatches p.crates m'.disk := by
      unfold runWizard
      refine Keeps.andThen (hprompt _) hfail fun _ => ?_
      refine Keeps.andThen (hprompt _) hfail fun payout => ?_
      refine Keeps.andThen (hprompt _) hfail fun bootstrapOnly => ?_
      refine Triple.bind ((triple_wizardGenerateKeypair inputs answers).mono (fun _ h => h)
        (fun _ _ h => h) fun _ m' hm' => ?_) fun keys => ?_
      · obtain ⟨keystore, hdisk⟩ := hm'
        rw [hdisk]
        exact hstore keystore
      · intro m' ⟨hopens, keystore, hdisk⟩
        rw [hdisk] at hopens
        exact triple_wizardAfterKeypair inputs answers payout bootstrapOnly (hstore keystore) hopens
          m' hdisk
    exact (hwizard m rfl).state
  · exact hm

/-- One invocation, whichever it is. -/
theorem matches_after {m : Machine σ}
    (hm : ConfigMatches p.crates m.disk) (i : Invocation σ) :
    ConfigMatches p.crates (p.after m i).disk := by
  cases i with
  | config inputs =>
      show ConfigMatches p.crates
        (runNoninteractiveSetup p.crates p.client p.paths inputs m).machine.disk
      rcases runNoninteractiveSetup_cases p.crates p.client p.paths inputs m with
        ⟨_, _, _, hrun⟩ | ⟨cfg, password, -, -, -, hrun⟩ | ⟨cfg, -, -, hrun⟩
      · rw [hrun]
        exact hm
      · rw [hrun]
        obtain ⟨hkeystore, hconfig⟩ := scrubAfter_disk inputs p.paths cfg
          (runSetupNoninteractiveLlmAssisted p.crates p.client p.paths inputs cfg password m)
        exact (matches_llmAssisted inputs cfg password hm).congr hkeystore hconfig
      · rw [hrun]
        obtain ⟨hkeystore, hconfig⟩ := scrubAfter_disk inputs p.paths cfg
          (runSetupNoninteractiveFresh p.crates p.client p.paths inputs cfg m)
        exact (matches_fresh inputs cfg hm).congr hkeystore hconfig
  | run inputs network =>
      show ConfigMatches p.crates
        (((runNode p.crates p.client p.paths inputs network m).map Host.machine).getD m).disk
      unfold runNode
      split_ifs
      · cases inputs.typedPassword with
        | error e => exact hm
        | ok password => exact matches_restore inputs password network hm
      · exact hm
  | setup inputs answers => exact matches_setup inputs answers hm
  -- the chain and `setup.json` are not part of the invariant
  | chain chain => exact hm
  | editSetup setup => exact hm.congr rfl rfl
  -- without a file there is nothing to match
  | removeConfig => exact ConfigMatches.absent

end

/-- **The node and its keys.**  From a directory without `config.json` on, whatever is run and
however it ends, a `config.json` that is whole passes the checks of the node and names the address
of the keystore beside it. -/
theorem config_matches_keystore (p : Program σ) {m m' : Machine σ}
    (is : List (Invocation σ)) (hm : m.disk.config = .absent)
    (hrun : p.system.run m is = some m') : ConfigMatches p.crates m'.disk := by
  refine p.system.run_invariant (C := fun _ _ => True) (I := fun m => ConfigMatches p.crates m.disk)
    (fun s i s' hs _ hstep => ?_) ?_ (p.system.follows_of_forall (fun _ _ => trivial) m) hrun
  · obtain rfl := Option.some.inj hstep
    exact matches_after hs i
  · intro config hwhole
    rw [hm] at hwhole
    cases hwhole

/-! ## Who overwrites a keystore -/

/-- The keystore that the wizard leaves where there was one. -/
def wizardKeystore (crates : Crates) (inputs : Inputs) (answers : Answers) (d : Disk) :
    Stored KeystoreFile :=
  match answers.password with
  | .error _ => d.keystore
  | .ok old =>
      match crates.load d.keystore (trimmed old), answers.newPassword with
      | .error _, .ok new =>
          match crates.saveKeystore (inputs.generated crates) (trimmed new) inputs.seed with
          | .error _ => d.keystore
          | .ok file => inputs.keystoreWrite.apply file d.keystore
      | _, _ => d.keystore

/-- A run of the wizard that comes to the keys, is given a password that does not unlock the
keystore and a new one, and gets to writing the file. -/
def Overwrites (p : Program σ) (m : Machine σ) (i : Invocation σ) : Prop :=
  ∃ inputs answers, i = .setup inputs answers ∧ isFirstBoot m.disk = true ∧
    answers.start = .ok () ∧ (∃ payout, answers.payout = .ok payout) ∧
    (∃ bootstrapOnly, answers.bootstrapOnly = .ok bootstrapOnly) ∧
    ∃ old e new file, answers.password = .ok old ∧
      p.crates.load m.disk.keystore (trimmed old) = .error e ∧
      answers.newPassword = .ok new ∧
      p.crates.saveKeystore (inputs.generated p.crates) (trimmed new) inputs.seed = .ok file ∧
      inputs.keystoreWrite.apply file m.disk.keystore ≠ m.disk.keystore

/-- When the wizard leaves another keystore. -/
theorem wizardKeystore_ne_iff {crates : Crates} {inputs : Inputs} {answers : Answers}
    {d : Disk} :
    wizardKeystore crates inputs answers d ≠ d.keystore ↔
      ∃ old e new file, answers.password = .ok old ∧
        crates.load d.keystore (trimmed old) = .error e ∧ answers.newPassword = .ok new ∧
        crates.saveKeystore (inputs.generated crates) (trimmed new) inputs.seed = .ok file ∧
        inputs.keystoreWrite.apply file d.keystore ≠ d.keystore := by
  unfold wizardKeystore
  cases hpassword : answers.password with
  | error e => simp
  | ok old =>
      cases hload : crates.load d.keystore (trimmed old) with
      | ok keys => simp [hload]
      | error e =>
          cases hnew : answers.newPassword with
          | error e' => simp
          | ok new =>
              cases hsave : crates.saveKeystore (inputs.generated crates) (trimmed new)
                  inputs.seed with
              | error e' => simp [hload, hsave]
              | ok file => simp [hload, hsave, -Subtype.exists]

section

variable {p : Program σ} {d : Disk} (inputs : Inputs) {α : Type}

/-- A write keeps what the new file keeps. -/
theorem keeps_write {D : Disk → Prop} {w : Write} {error : String}
    {store : Disk → Disk} (h : ∀ d, D d → D (store d)) :
    Keeps (fun m : Machine σ => D m.disk) (write w error store) := by
  unfold write
  refine Keeps.bind (Keeps.modify fun m => h m.disk) fun _ => ?_
  cases w.error with
  | none => exact Keeps.pure _
  | some e => exact Keeps.throw _

/-- Opening the keystore changes no file. -/
theorem keeps_unlock {D : Disk → Prop} (password : String) :
    Keeps (fun m : Machine σ => D m.disk)
      (unlockExistingKeystore p.crates p.paths password) := by
  intro m hm
  refine (triple_unlockKeystore (d := m.disk) p.crates p.paths password).mono (fun _ h => h)
    (fun _ m' hm' => ?_) (fun _ m' hm' => ?_) m rfl
  · rwa [hm'.2]
  · rwa [hm']

/-- Restoring keeps what its steps keep. -/
theorem keeps_restore {I : Machine σ → Prop} (password : String) (network : Network)
    (hunlock : Keeps I (unlockExistingKeystore p.crates p.paths password))
    (hsigner : ∀ keys, Keeps I (setSigner p.crates p.client keys))
    (hcheck : ∀ address, Keeps I (onChain (p.client.checkExistingNft address)))
    (hwrite : ∀ config, Keeps I (writeConfig inputs "IO error: " config)) {m : Machine σ}
    (hm : I m) :
    I (runSetupNoninteractiveRestore p.crates p.client p.paths inputs password network
      m).machine := by
  have hreport : ∀ f, Keeps (fun h : Host σ => I h.machine) (HostM.report f) := keeps_report I
  refine keeps_finish ?_ hm _
  refine Keeps.bind (keeps_step hunlock _) fun keys => ?_
  unfold restoreWithKeys
  refine Keeps.bind (hreport _) fun _ => Keeps.bind (hreport _) fun _ => ?_
  refine Keeps.bind (keeps_step (hsigner keys) _) fun _ => ?_
  refine Keeps.bind (keeps_step (hcheck _) _) fun nft => ?_
  cases nft with
  | none => exact Keeps.throw _
  | some nftId =>
      unfold restoreWithNft
      refine Keeps.bind (hreport _) fun _ => Keeps.bind (hreport _) fun _ => ?_
      refine Keeps.bind (hreport _) fun _ => Keeps.bind (hreport _) fun _ => ?_
      refine Keeps.bind (keeps_escrowSnapshot _ _ _ _) fun balances => ?_
      refine Keeps.bind (hreport _) fun _ => Keeps.bind (hreport _) fun _ => ?_
      refine Keeps.bind (Keeps.ite (hreport _) (Keeps.pure _)) fun _ => ?_
      refine Keeps.bind (Keeps.of_get fun _ => Keeps.ite (hreport _) (Keeps.pure _)) fun _ => ?_
      refine Keeps.bind (keeps_step (hwrite _) _) fun _ => ?_
      exact Keeps.bind (hreport _) fun _ => hreport _

/-- Restoring leaves the keystore alone. -/
theorem keystore_restore (password : String) (network : Network) (m : Machine σ) :
    (runSetupNoninteractiveRestore p.crates p.client p.paths inputs password network
      m).machine.disk.keystore = m.disk.keystore :=
  keeps_restore (I := fun m' => m'.disk.keystore = m.disk.keystore) inputs password network
    (keeps_unlock (D := fun d => d.keystore = m.disk.keystore) password)
    (fun _ => keeps_setSigner (D := fun d => d.keystore = m.disk.keystore) _ _ _)
    (fun _ => keeps_onChain (D := fun d => d.keystore = m.disk.keystore) _)
    (fun _ => keeps_write (D := fun d => d.keystore = m.disk.keystore) fun _ h => h) rfl

/-- Where there is a keystore, `--config` leaves it alone. -/
theorem keystore_config (m : Machine σ) (hexists : m.disk.keystore.exists = true) :
    (runNoninteractiveSetup p.crates p.client p.paths inputs m).machine.disk.keystore
      = m.disk.keystore := by
  have hkept : ∀ {h : Host σ}, Accounts m.disk h →
      h.machine.disk.keystore = m.disk.keystore := by
    intro h haccounts
    rcases haccounts.keystore with ⟨-, hnone, -⟩ | ⟨-, hsame | ⟨-, hnone, -⟩⟩
    · rw [hexists] at hnone
      cases hnone
    · exact hsame
    · rw [hexists] at hnone
      cases hnone
  rcases runNoninteractiveSetup_cases p.crates p.client p.paths inputs m with
    ⟨_, _, _, hrun⟩ | ⟨cfg, password, -, -, -, hrun⟩ | ⟨cfg, -, hnone, -⟩
  · rw [hrun]
  · rw [hrun, (scrubAfter_disk inputs p.paths cfg _).1]
    exact hkept (accounts_llmAssisted p.crates p.client p.paths inputs cfg password m)
  · rw [hexists] at hnone
    cases hnone

/-- Saving keys leaves the file as the write does, if there is something to write. -/
theorem triple_savedKeystore (password : String) (file : KeystoreFile)
    (hsave : p.crates.saveKeystore (inputs.generated p.crates) password inputs.seed = .ok file) :
    Triple (fun m : Machine σ => m.disk = d) (saveKeystore p.crates inputs password)
      (fun _ m => m.disk.keystore = inputs.keystoreWrite.apply file d.keystore)
      fun _ m => m.disk.keystore = inputs.keystoreWrite.apply file d.keystore := by
  unfold saveKeystore
  rw [hsave]
  exact (triple_write inputs.keystoreWrite _ _ d).mono (fun _ h => h)
    (fun _ m hm => by rw [hm.2]) fun _ m hm => by rw [hm.2]

/-- The wizard leaves what it makes of the keystore, once it has come to the keys. -/
theorem triple_wizardKeystore (answers : Answers) (hexists : d.keystore.exists = true) :
    Triple (fun m : Machine σ => m.disk = d) (wizardGenerateKeypair p.crates inputs answers)
      (fun _ m => m.disk.keystore = wizardKeystore p.crates inputs answers d)
      fun _ m => m.disk.keystore = wizardKeystore p.crates inputs answers d := by
  unfold wizardGenerateKeypair wizardKeystore
  refine Triple.bind ((triple_wizardUnlock p.crates answers).mono (fun _ h => h) (fun _ _ h => h)
    fun _ m hm => ?_) fun unlocked => ?_
  · obtain ⟨hdisk, e, hpassword⟩ := hm
    rw [hpassword, hdisk]
  · intro m ⟨hm, hread⟩
    rcases hread with ⟨hnone, -⟩ | ⟨old, hpassword, rfl⟩
    · rw [hexists] at hnone
      cases hnone
    rw [hpassword]
    dsimp only
    revert m
    cases p.crates.load d.keystore (trimmed old) with
    -- the keystore opens and is kept
    | ok keys => exact fun m hm => congrArg Disk.keystore hm
    | error e =>
        unfold prompt
        cases answers.newPassword with
        | error e => exact fun m hm => congrArg Disk.keystore hm
        | ok new =>
            show Triple (fun m => m.disk = d)
              (saveKeystore p.crates inputs (trimmed new) >>= fun _ =>
                pure (inputs.generated p.crates)) _ _
            dsimp only
            cases hsave : p.crates.saveKeystore (inputs.generated p.crates) (trimmed new)
                inputs.seed with
            | error e =>
                have hfails : saveKeystore (σ := σ) p.crates inputs (trimmed new)
                    = throw ("keystore error: " ++ e.text) := by
                  unfold saveKeystore
                  rw [hsave]
                rw [hfails]
                exact fun m hm => congrArg Disk.keystore hm
            -- the new keys take its place
            | ok file =>
                exact Triple.bind (triple_savedKeystore inputs (trimmed new) file hsave)
                  fun _ _ hm => hm

/-- After the keys, the wizard keeps what its steps keep. -/
theorem keeps_wizardAfterKeypair {I : Machine σ → Prop} (answers : Answers)
    (payout : String) (bootstrapOnly : Bool) (keys : KeyPair)
    (hsigner : Keeps I (setSigner p.crates p.client keys))
    (hchain : ∀ {α : Type} (x : SetupM σ α), Keeps I (onChain x))
    (hwrite : ∀ config, Keeps I (writeConfig inputs "config error: IO error: " config)) :
    Keeps I (wizardAfterKeypair p.crates p.client inputs answers payout bootstrapOnly keys) := by
  unfold wizardAfterKeypair
  refine Keeps.bind hsigner fun _ => ?_
  refine Keeps.bind (hchain _) fun funding => ?_
  refine Keeps.bind (keeps_wizardNft hchain answers _ keys) fun nftId => ?_
  refine Keeps.bind (keeps_prompt _) fun withdrawal => ?_
  refine Keeps.bind (hchain _) fun _ => ?_
  refine Keeps.bind (keeps_wizardTokens hchain _ _ _ _) fun _ => ?_
  exact Keeps.bind (hwrite _) fun _ => Keeps.pure _

/-- What the wizard leaves of a keystore. -/
theorem keystore_runWizard (answers : Answers) {m : Machine σ}
    (hexists : m.disk.keystore.exists = true) :
    (execOn (runWizard p.crates p.client inputs answers) m).2.disk.keystore
      = if answers.start.isOk ∧ answers.payout.isOk ∧ answers.bootstrapOnly.isOk then
          wizardKeystore p.crates inputs answers m.disk
        else m.disk.keystore := by
  unfold runWizard prompt
  cases answers.start with
  | error e => rfl
  | ok _ =>
      cases answers.payout with
      | error e => rfl
      | ok payout =>
          cases answers.bootstrapOnly with
          | error e => rfl
          | ok bootstrapOnly =>
              rw [if_pos ⟨rfl, rfl, rfl⟩]
              have htriple := Triple.bind (triple_wizardKeystore (p := p) inputs answers hexists)
                fun keys => keeps_wizardAfterKeypair (p := p) inputs answers payout
                  bootstrapOnly keys
                  (keeps_setSigner (D := fun d => d.keystore = _) _ _ _)
                  (keeps_onChain (D := fun d => d.keystore = _))
                  (fun _ => keeps_write (D := fun d => d.keystore = _) fun _ h => h)
              exact (htriple m rfl).state

/-- There is an answer. -/
theorem isOk_iff {ε : Type} {x : Except ε α} : x.isOk = true ↔ ∃ a, x = .ok a := by
  cases x with
  | error e => simp [Except.isOk, Except.toBool]
  | ok a => simp [Except.isOk, Except.toBool]

/-- The wizard keeps the keystore exactly if it does not overwrite it. -/
theorem keystore_setup (answers : Answers) {m : Machine σ}
    (hexists : m.disk.keystore.exists = true) :
    (runSetupCommand p.crates p.client inputs answers m).disk.keystore = m.disk.keystore ↔
      ¬ Overwrites p m (.setup inputs answers) := by
  have hovers : Overwrites p m (.setup inputs answers) ↔ isFirstBoot m.disk = true ∧
      (answers.start.isOk ∧ answers.payout.isOk ∧ answers.bootstrapOnly.isOk) ∧
        wizardKeystore p.crates inputs answers m.disk ≠ m.disk.keystore := by
    rw [wizardKeystore_ne_iff, isOk_iff, isOk_iff, isOk_iff]
    constructor
    · rintro ⟨_, _, heq, hfirst, hstart, hpayout, hbootstrap, hkeys⟩
      obtain ⟨rfl, rfl⟩ := Invocation.setup.inj heq
      exact ⟨hfirst, ⟨⟨(), hstart⟩, hpayout, hbootstrap⟩, hkeys⟩
    · rintro ⟨hfirst, ⟨⟨_, hstart⟩, hpayout, hbootstrap⟩, hkeys⟩
      exact ⟨inputs, answers, rfl, hfirst, hstart, hpayout, hbootstrap, hkeys⟩
  rw [hovers]
  unfold runSetupCommand
  split_ifs with hfirst
  · rw [keystore_runWizard inputs answers hexists]
    split_ifs with hprompts
    · simp [hfirst, hprompts]
    · exact iff_of_true rfl fun h => hprompts h.2.1
  · exact iff_of_true rfl fun h => hfirst h.1

end

/-- **Who overwrites the keystore.**  In a run from a machine with a keystore, this stays what it
is exactly as long as no wizard, in a directory where `config.json` is missing, is given a password
that does not unlock it and goes on to write new keys. -/
theorem keystore_kept_iff (p : Program σ) {m m' : Machine σ} (is : List (Invocation σ))
    (hexists : m.disk.keystore.exists = true) (hrun : p.system.run m is = some m') :
    p.system.Always (fun s => s.disk.keystore = m.disk.keystore) m is ↔
      p.system.Follows (fun s i => ¬ Overwrites p s i) m is := by
  refine p.system.always_iff (J := fun _ => True) (fun _ _ _ _ _ => trivial)
    (fun s i s' _ hs hstep => ?_) trivial rfl hrun
  obtain rfl := Option.some.inj hstep
  rw [← hs] at hexists ⊢
  cases i with
  | config inputs =>
      refine iff_of_true ?_ fun ⟨_, _, heq, _⟩ => by cases heq
      exact keystore_config inputs s hexists
  | run inputs network =>
      refine iff_of_true ?_ fun ⟨_, _, heq, _⟩ => by cases heq
      show (((runNode p.crates p.client p.paths inputs network s).map Host.machine).getD
        s).disk.keystore = s.disk.keystore
      unfold runNode
      split_ifs
      · cases inputs.typedPassword with
        | error e => rfl
        | ok password => exact keystore_restore inputs password network s
      · rfl
  | setup inputs answers => exact keystore_setup inputs answers hexists
  | chain chain => exact iff_of_true rfl fun ⟨_, _, heq, _⟩ => by cases heq
  | editSetup setup => exact iff_of_true rfl fun ⟨_, _, heq, _⟩ => by cases heq
  | removeConfig => exact iff_of_true rfl fun ⟨_, _, heq, _⟩ => by cases heq

/-! ## A setup that failed -/

/-- There is a keystore, and `setup.json` is the given one. -/
def KeystoreAndSetup (setup : SetupFile) (d : Disk) : Prop :=
  d.keystore.exists = true ∧ d.setup = setup

section

variable {p : Program σ} {setup : SetupFile} (inputs : Inputs) {α : Type}

/-- With a keystore and a password in the file, `--config` gives up before it does anything. -/
theorem config_refused {m : Machine σ} {cfg : SetupConfig}
    (hm : KeystoreAndSetup setup m.disk) (hcontents : setup.contents = .ok cfg)
    (hpassword : cfg.keystorePassword.isSome) :
    (runNoninteractiveSetup p.crates p.client p.paths inputs m).machine = m ∧
      (runNoninteractiveSetup p.crates p.client p.paths inputs m).result.success = false := by
  obtain ⟨hexists, hsetup⟩ := hm
  rcases runNoninteractiveSetup_cases p.crates p.client p.paths inputs m with
    ⟨_, _, _, hrun⟩ | ⟨cfg', _, hcfg, -, hnone, -⟩ | ⟨_, -, hnone, -⟩
  · rw [hrun]
    exact ⟨rfl, rfl⟩
  · rw [hsetup, hcontents] at hcfg
    obtain rfl := Except.ok.inj hcfg
    rw [hnone] at hpassword
    cases hpassword
  · rw [hexists] at hnone
    cases hnone

/-- A write never removes a file. -/
theorem exists_apply (w : Write) (file : KeystoreFile) {old : Stored KeystoreFile}
    (h : old.exists = true) : (w.apply file old).exists = true := by
  cases w with
  | done => rfl
  | refused e => exact h
  | cutShort e => rfl

/-- The wizard keeps what new keys and a new `config.json` keep. -/
theorem keeps_runWizard {D : Disk → Prop} (answers : Answers)
    (hkeystore : ∀ password file d,
      p.crates.saveKeystore (inputs.generated p.crates) password inputs.seed = .ok file →
        D d → D (d.storeKeystore (inputs.keystoreWrite.apply file d.keystore)))
    (hconfig : ∀ config d, D d → D (d.storeConfig config)) :
    Keeps (fun m : Machine σ => D m.disk) (runWizard p.crates p.client inputs answers) := by
  have hsave : ∀ password,
      Keeps (fun m : Machine σ => D m.disk) (saveKeystore p.crates inputs password) := by
    intro password
    unfold saveKeystore
    cases hfile : p.crates.saveKeystore (inputs.generated p.crates) password inputs.seed with
    | error e => exact Keeps.throw _
    | ok file => exact keeps_write fun d hd => hkeystore password file d hfile hd
  unfold runWizard
  refine Keeps.bind (keeps_prompt _) fun _ => ?_
  refine Keeps.bind (keeps_prompt _) fun payout => ?_
  refine Keeps.bind (keeps_prompt _) fun bootstrapOnly => ?_
  refine Keeps.bind ?_ fun keys => ?_
  · unfold wizardGenerateKeypair wizardUnlock disk
    refine Keeps.bind ?_ fun unlocked => ?_
    · refine Keeps.bind (Keeps.of_get fun _ => Keeps.pure _) fun d => ?_
      exact Keeps.ite (Keeps.bind (keeps_prompt _) fun _ => Keeps.pure _) (Keeps.pure _)
    · cases unlocked with
      | some keys => exact Keeps.pure keys
      | none =>
          refine Keeps.bind (keeps_prompt _) fun password => ?_
          exact Keeps.bind (hsave _) fun _ => Keeps.pure _
  · exact keeps_wizardAfterKeypair inputs answers payout bootstrapOnly keys
      (keeps_setSigner (D := D) _ _ _) (keeps_onChain (D := D))
      fun _ => keeps_write fun d hd => hconfig _ d hd

/-- Restoring leaves `setup.json` alone, and a keystore where there was one. -/
theorem keeps_runNode (network : Network) {m : Machine σ}
    (hm : KeystoreAndSetup setup m.disk) :
    KeystoreAndSetup setup (p.after m (.run inputs network)).disk := by
  show KeystoreAndSetup setup
    (((runNode p.crates p.client p.paths inputs network m).map Host.machine).getD m).disk
  unfold runNode
  split_ifs
  · cases inputs.typedPassword with
    | error e => exact hm
    | ok password =>
        exact keeps_restore inputs password network (keeps_unlock password)
          (fun _ => keeps_setSigner (D := KeystoreAndSetup setup) _ _ _)
          (fun _ => keeps_onChain (D := KeystoreAndSetup setup) _)
          (fun _ => keeps_write fun _ h => h) hm
  · exact hm

/-- Whatever is run then, a keystore stays there, and only an edit changes `setup.json`. -/
theorem keystoreAndSetup_after {m : Machine σ} {i : Invocation σ}
    (hm : KeystoreAndSetup setup m.disk) {cfg : SetupConfig} (hcontents : setup.contents = .ok cfg)
    (hpassword : cfg.keystorePassword.isSome) (hedit : ∀ setup, i ≠ .editSetup setup) :
    KeystoreAndSetup setup (p.after m i).disk := by
  cases i with
  | config inputs =>
      show KeystoreAndSetup setup
        (runNoninteractiveSetup p.crates p.client p.paths inputs m).machine.disk
      rwa [(config_refused inputs hm hcontents hpassword).1]
  | run inputs network => exact keeps_runNode inputs network hm
  | setup inputs answers =>
      show KeystoreAndSetup setup (runSetupCommand p.crates p.client inputs answers m).disk
      unfold runSetupCommand
      split_ifs
      · exact (keeps_runWizard (D := KeystoreAndSetup setup) inputs answers
        (fun _ file _ _ hd => ⟨exists_apply _ file hd.1, hd.2⟩) (fun _ _ hd => hd) m hm).state
      · exact hm
  | chain chain => exact hm
  | editSetup setup => exact absurd rfl (hedit setup)
  | removeConfig => exact hm

/-- A setup with a file that failed has left `setup.json` as it was. -/
theorem setup_of_failed {m : Machine σ}
    (hfailed :
      (runNoninteractiveSetup p.crates p.client p.paths inputs m).result.success = false) :
    (runNoninteractiveSetup p.crates p.client p.paths inputs m).machine.disk.setup
      = m.disk.setup := by
  have hscrub : ∀ (cfg : SetupConfig) (h : Host σ),
      (scrubAfter p.paths inputs cfg h).result.success = false →
        scrubAfter p.paths inputs cfg h = h := by
    intro cfg h hresult
    unfold scrubAfter at hresult ⊢
    split_ifs at hresult ⊢ with hsuccess
    · revert hresult
      rcases execOn (scrubPasswordFromSetupFile p.paths inputs cfg) h.machine with ⟨_ | ⟨⟩, m'⟩
      · exact fun hresult => absurd (hsuccess.1.symm.trans hresult) (by decide)
      · exact fun hresult => absurd (hsuccess.1.symm.trans hresult) (by decide)
    · rfl
  rcases runNoninteractiveSetup_cases p.crates p.client p.paths inputs m with
    ⟨_, _, _, hrun⟩ | ⟨cfg, password, -, -, -, hrun⟩ | ⟨cfg, -, -, hrun⟩
  · rw [hrun]
  · rw [hrun] at hfailed ⊢
    rw [hscrub cfg _ hfailed]
    exact (accounts_llmAssisted p.crates p.client p.paths inputs cfg password m).setup
  · rw [hrun] at hfailed ⊢
    rw [hscrub cfg _ hfailed]
    exact (accounts_fresh p.crates p.client p.paths inputs cfg m).setup

/-- A keystore is generated with the password of the file. -/
theorem password_of_generated {m : Machine σ} (hfresh : m.disk.keystore.exists = false)
    (hkeystore : (runNoninteractiveSetup p.crates p.client p.paths inputs
      m).machine.disk.keystore.exists = true) :
    ∃ cfg, m.disk.setup.contents = .ok cfg ∧ cfg.keystorePassword.isSome := by
  rcases runNoninteractiveSetup_cases p.crates p.client p.paths inputs m with
    ⟨_, _, _, hrun⟩ | ⟨_, _, -, hexists, -⟩ | ⟨cfg, hcontents, -, hrun⟩
  · rw [hrun, hfresh] at hkeystore
    cases hkeystore
  · rw [hfresh] at hexists
    cases hexists
  · refine ⟨cfg, hcontents, ?_⟩
    by_contra hnone
    have hpassword : cfg.keystorePassword = none := by simpa using hnone
    have hinvalid : ∃ e, validateForFreshSetup p.crates cfg = .error e := by
      unfold validateForFreshSetup
      rw [hpassword]
      cases validateCommon p.crates cfg with
      | error e => exact ⟨e, rfl⟩
      | ok v => exact ⟨_, rfl⟩
    obtain ⟨e, hinvalid⟩ := hinvalid
    rw [hrun, (scrubAfter_disk inputs p.paths cfg _).1] at hkeystore
    unfold runSetupNoninteractiveFresh at hkeystore
    rw [hinvalid] at hkeystore
    exact absurd (hfresh.symm.trans hkeystore) (by decide)

end

/-- **A setup that failed** after it generated the keystore cannot be run again: after any runs of
the program, changes of the chain and removals of `config.json`, as long as `setup.json` is not
edited and `keystore.json` not removed, `--config` fails and leaves everything as it is. -/
theorem failed_setup_is_refused (p : Program σ) {m m' : Machine σ}
    (inputs again : Inputs) (is : List (Invocation σ)) (hfresh : m.disk.keystore.exists = false)
    (hfailed : ∀ r, p.report m (.config inputs) = some r → r.success = false)
    (hkeystore : (p.after m (.config inputs)).disk.keystore.exists = true)
    (hedit : ∀ i ∈ is, ∀ setup, i ≠ .editSetup setup)
    (hrun : p.system.run m (.config inputs :: is) = some m') :
    p.after m' (.config again) = m' ∧
      ∀ r, p.report m' (.config again) = some r → r.success = false := by
  obtain ⟨cfg, hcontents, hpassword⟩ := password_of_generated inputs hfresh hkeystore
  have hkept : KeystoreAndSetup m.disk.setup m'.disk := by
    refine p.system.run_invariant (C := fun _ i => ∀ setup, i ≠ .editSetup setup)
      (I := fun s => KeystoreAndSetup m.disk.setup s.disk) (fun s i s' hs hi hstep => ?_) ?_
      (p.system.follows_of_forall hedit (p.after m (.config inputs))) hrun
    · obtain rfl := Option.some.inj hstep
      exact keystoreAndSetup_after hs hcontents hpassword hi
    · exact ⟨hkeystore, setup_of_failed inputs (hfailed _ rfl)⟩
  obtain ⟨hmachine, hresult⟩ := config_refused again hkept hcontents hpassword (p := p)
  refine ⟨hmachine, fun r hr => ?_⟩
  obtain rfl := Option.some.inj hr
  exact hresult

/-! ## A disk that is full -/

section sample

/-- Keystores that hide nothing, and a short hash. -/
def plainCrates : Crates where
  toKeystoreCrates := plainKeystore
  sha3_256 bytes := bytes.take 4
  toLowercase s := String.ofList (s.toList.map Char.toLower)
  toLowercase_ascii _ _ := rfl

/-- A chain with one address, which has gas, a funded escrow and, once it is minted, token 7. -/
def oneTokenClient : SetupClient Bool where
  getNftMintState _ _ := .ok (true, false)
  getPendingMintClaimableAt _ _ := .ok none
  submitClaimMint := throw .aborted
  submitRequestMint _ _ _ := throw .aborted
  readLine := throw .aborted
  now _ := 0
  sleep _ minted := minted
  cancellableSleep _ := throw .aborted
  getTrippplesMetadata _ _ := .ok "0xe"
  getEscrowBalance _ _ _ := .ok 300000
  getFaBalance _ _ := .ok 0
  submitDeposit _ _ := throw .aborted
  getAllBalances _ := pure ⟨500000000, []⟩
  isTrustee _ := get
  getNftId _ := pure 7
  getMintFee := pure 100000000
  submitMint _ _ := do
    set true
    return ⟨true, 12, "Executed"⟩
  submitRegister _ _ _ := pure ⟨true, 12, "Executed"⟩
  setSigner _ _ minted := minted

/-- The program on that chain. -/
def sampleProgram : Program Bool :=
  ⟨plainCrates, oneTokenClient, ⟨"keystore.json", "config.json", "setup.json"⟩⟩

/-- A `setup.json` with a password. -/
def sampleSetup : SetupConfig where
  network := "testnet"
  payoutAddress := "0x0123456789"
  sponsorAddress := none
  nodeRole := "trading"
  keystorePassword := some "correct horse"
  mintAmounts := ⟨1, 1, 1⟩
  withdrawalRules := ⟨90, true⟩

/-- A directory with `setup.json` alone. -/
def freshMachine : Machine Bool :=
  ⟨false, ⟨.absent, .absent, ⟨.ok sampleSetup, 0o600, true⟩⟩⟩

/-- A run in which all goes well but perhaps the write of `config.json`. -/
def sampleInputs (configWrite : Write) : Inputs where
  secretKey := .replicate 32 1
  seed := ⟨.replicate 32 0, .replicate 12 0⟩
  polls := 1
  typedPassword := .ok "correct horse"
  keystoreWrite := .done
  configWrite := configWrite
  setupWrite := .done
  setupNotJson := "EOF while parsing a value at line 1 column 0"

/-- A fresh setup writes a `config.json` that matches the keystore. -/
theorem fresh_setup_matches :
    (sampleProgram.after freshMachine (.config (sampleInputs .done))).disk.config ≠ .absent ∧
      (sampleProgram.after freshMachine (.config (sampleInputs .done))).disk.config ≠ .broken ∧
      ConfigMatches plainCrates
        (sampleProgram.after freshMachine (.config (sampleInputs .done))).disk :=
  ⟨by decide +kernel, by decide +kernel,
    config_matches_keystore sampleProgram [.config (sampleInputs .done)] rfl rfl⟩

/-- The disk is full when `config.json` is written: after that, even with space and without the
broken file, the setup is refused. -/
theorem full_disk_is_refused :
    let m := sampleProgram.after (sampleProgram.after freshMachine
      (.config (sampleInputs (.cutShort "No space left on device")))) .removeConfig
    sampleProgram.after m (.config (sampleInputs .done)) = m :=
  (failed_setup_is_refused sampleProgram (m := freshMachine)
    (sampleInputs (.cutShort "No space left on device")) (sampleInputs .done) [.removeConfig] rfl
    (fun r hr => by
      obtain rfl := Option.some.inj hr
      decide +kernel)
    (by decide +kernel) (by simp) rfl).1

/-- The file that another setup left, under the password "correct horse". -/
def otherKeystore : KeystoreFile :=
  ⟨_, plainCrates.nonceFits_encryptedKeystore ⟨.replicate 32 0, .replicate 12 0⟩
    ("correct horse".toUTF8.data.toList ++ List.replicate 19 0 ++ List.replicate 32 2)
    (.replicate 32 2)⟩

/-- A machine with a keystore and no `config.json`. -/
def keystoreOnly : Machine Bool :=
  ⟨true, ⟨.whole otherKeystore, .absent, ⟨.ok sampleSetup, 0o600, true⟩⟩⟩

/-- Answers with a password that is not that of the keystore. -/
def wrongPassword : Answers where
  start := .ok ()
  payout := .ok "0x0123456789"
  bootstrapOnly := .ok true
  password := .ok "correct house"
  newPassword := .ok "battery staple"
  sponsor := .ok "0x0123456789"
  proceed := .ok true
  withdrawal := .ok ⟨⟨90, true⟩, by decide⟩

/-- A wrong password in the wizard, and the keys are gone. -/
theorem wrong_password_overwrites :
    ¬ sampleProgram.system.Always (fun s => s.disk.keystore = keystoreOnly.disk.keystore)
      keystoreOnly [.setup (sampleInputs .done) wrongPassword] := by
  rw [keystore_kept_iff sampleProgram [.setup (sampleInputs .done) wrongPassword] rfl rfl]
  rintro ⟨hkept, -⟩
  refine hkept ⟨_, _, rfl, rfl, rfl, ⟨_, rfl⟩, ⟨_, rfl⟩, "correct house", .decryptionFailed,
    "battery staple", _, rfl, by decide +kernel, rfl, rfl, ?_⟩
  -- the two files have different ciphertexts
  refine ne_of_apply_ne (fun file => match file with
    | .whole contents => EncryptedKeystore.fromJson contents.1
    | _ => none) ?_
  decide +kernel

end sample

end Setup
